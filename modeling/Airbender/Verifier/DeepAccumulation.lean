import Airbender.Field.QuarticField
import Airbender.Lib.Horner

/-!
# The DEEP polynomial at a query

The verifier adds up the openings of all polynomials, and the leaf values of a query, with the
powers of one challenge.  One path stores the powers; the other walks backwards with fused
multiplications and additions.
-/

namespace Airbender.Verifier

open Circuit (F)

abbrev Q := Mersenne31Quartic

/-- Sizes and indices of a compiled circuit, as far as the openings depend on them. -/
structure DeepLayout where
  setupWidth : Nat
  witnessWidth : Nat
  memoryWidth : Nat
  numBaseFieldPolys : Nat
  numExt4FieldPolys : Nat
  /-- Where the elements of the quartic extension start in a leaf of stage 2. -/
  ext4PolysOffset : Nat
  witnessNextRowOpeningIndexes : List Nat
  memoryNextRowOpeningIndexes : List Nat
  memoryGrandProductAccumulatorPolyIndex : Nat
  base_le : numBaseFieldPolys ≤ ext4PolysOffset
  witness_lt : ∀ index ∈ witnessNextRowOpeningIndexes, index < witnessWidth
  memory_lt : ∀ index ∈ memoryNextRowOpeningIndexes, index < memoryWidth
  accumulator_ge : numBaseFieldPolys ≤ memoryGrandProductAccumulatorPolyIndex
  accumulator_lt :
    memoryGrandProductAccumulatorPolyIndex < numBaseFieldPolys + numExt4FieldPolys
  /-- The fused path runs where a `usize` has 32 bits. -/
  fits : setupWidth + witnessWidth + memoryWidth + numBaseFieldPolys + numExt4FieldPolys + 1 <
    2 ^ 32

namespace DeepLayout

variable (layout : DeepLayout)

def stage2Width : Nat := layout.ext4PolysOffset + 4 * layout.numExt4FieldPolys

def numOpeningsAtZ : Nat :=
  layout.setupWidth + layout.witnessWidth + layout.memoryWidth + layout.numBaseFieldPolys +
    layout.numExt4FieldPolys + 1

def numOpeningsAtZOmega : Nat :=
  layout.witnessNextRowOpeningIndexes.length + layout.memoryNextRowOpeningIndexes.length + 1

end DeepLayout

structure ProofSkeleton (layout : DeepLayout) where
  openingsAtZ : Vector Q layout.numOpeningsAtZ
  openingsAtZOmega : Vector Q layout.numOpeningsAtZOmega

structure QueryValues (layout : DeepLayout) where
  setupLeaf : Vector F layout.setupWidth
  witnessLeaf : Vector F layout.witnessWidth
  memoryLeaf : Vector F layout.memoryWidth
  stage2Leaf : Vector F layout.stage2Width
  quotientLeaf : Vector F 4

variable {layout : DeepLayout}

/-- `as_chunks::<4>`, as elements of the quartic extension. -/
def quarticsOfElements : List F → List Q
  | c0 :: c1 :: c2 :: c3 :: rest =>
      Mersenne31Quartic.fromCoeffsInBase #v[c0, c1, c2, c3] :: quarticsOfElements rest
  | _ => []

/-! ## Stored powers -/

/-- One opening: the power is stored, and the opening times the power is added. -/
def precomputeTerm (deepPolyAlpha : Q) (state : List Q × Q × Q) (eval : Q) : List Q × Q × Q :=
  let (powers, precompute, current) := state
  (powers ++ [current], precompute + current * eval, current * deepPolyAlpha)

/-- `precompute_for_consistency_checks`: the sums at both points, and the powers. -/
def precomputeForConsistencyChecks (skeleton : ProofSkeleton layout) (deepPolyAlpha : Q) :
    Q × Q × List Q :=
  let (powers, atZ, current) :=
    skeleton.openingsAtZ.toList.foldl (precomputeTerm deepPolyAlpha) ([], 0, 1)
  let (powers, atZOmega, _) :=
    skeleton.openingsAtZOmega.toList.foldl (precomputeTerm deepPolyAlpha) (powers, 0, current)
  (atZ, atZOmega, powers)

/-- A leaf value of the base field times the power whose turn it is. -/
def addBaseTerm (powers : List Q) (state : Nat × Q) (leafEl : F) : Nat × Q :=
  (state.1 + 1, state.2 + ((powers[state.1]?.getD 0).mulByBase leafEl))

def addExtTerm (powers : List Q) (state : Nat × Q) (leafEl : Q) : Nat × Q :=
  (state.1 + 1, state.2 + (powers[state.1]?.getD 0) * leafEl)

/-- `accumulate_over_row_for_consistency_check`. -/
def accumulateOverRow (precomputeAtZ precomputeAtZOmega : Q) (query : QueryValues layout)
    (powers : List Q) (divisorForZ divisorForZOmega : Q)
    (tauInDomainByHalf tauInDomainByHalfInversed : Mersenne31Complex) : Q :=
  let state := query.setupLeaf.toList.foldl (addBaseTerm powers) (0, 0)
  let state := query.witnessLeaf.toList.foldl (addBaseTerm powers) state
  let state := query.memoryLeaf.toList.foldl (addBaseTerm powers) state
  let state :=
    (query.stage2Leaf.toList.take layout.numBaseFieldPolys).foldl (addBaseTerm powers) state
  let state := (quarticsOfElements (query.stage2Leaf.toList.drop layout.ext4PolysOffset)).foldl
    (addExtTerm powers) state
  -- the quotient has no adjustment, and the one below is canceled
  let quotient := ((powers[state.1]?.getD 0) *
    Mersenne31Quartic.fromCoeffsInBase query.quotientLeaf).mulByComplex tauInDomainByHalfInversed
  let accumulatedAtZ := (state.2 + quotient).mulByComplex tauInDomainByHalf
  let simulatedFromZ := (precomputeAtZ - accumulatedAtZ) * divisorForZ
  let state := layout.witnessNextRowOpeningIndexes.foldl
    (fun state index => addBaseTerm powers state (query.witnessLeaf.toList[index]?.getD 0))
    (state.1 + 1, 0)
  let state := layout.memoryNextRowOpeningIndexes.foldl
    (fun state index => addBaseTerm powers state (query.memoryLeaf.toList[index]?.getD 0)) state
  let accumulator := (quarticsOfElements (query.stage2Leaf.toList.drop
    (layout.ext4PolysOffset +
      (layout.memoryGrandProductAccumulatorPolyIndex - layout.numBaseFieldPolys) * 4))).head?.getD 0
  let accumulatedAtZOmega :=
    (state.2 + (powers[state.1]?.getD 0) * accumulator).mulByComplex tauInDomainByHalf
  let simulatedFromZOmega := (precomputeAtZOmega - accumulatedAtZOmega) * divisorForZOmega
  simulatedFromZ + simulatedFromZOmega

/-! ## Fused operations -/

/-- `fused_mul_add_assign`. -/
def fusedMulAdd (value a b : Q) : Q := value * a + b

/-- The loop of `pow_with_fma`; an exponent of `bits` bits is zero after as many rounds. -/
def powWithFmaLoop (base result : Q) (exp : Nat) : Nat → Q
  | 0 => result
  | bits + 1 =>
      if exp = 0 then
        result
      else
        powWithFmaLoop (fusedMulAdd base base 0)
          (if exp % 2 = 1 then fusedMulAdd result base 0 else result) (exp / 2) bits

def powWithFma (base : Q) (exp : U32) : Q := powWithFmaLoop base 1 exp.toNat 32

/-- `precompute_for_consistency_checks_with_fma`: the sums at both points, and the power that
the openings at the second point start with. -/
def precomputeForConsistencyChecksWithFma (skeleton : ProofSkeleton layout) (deepPolyAlpha : Q) :
    Q × Q × Q :=
  let atZ := skeleton.openingsAtZ.toList.foldr
    (fun eval value => fusedMulAdd value deepPolyAlpha eval) 0
  let atZOmega := skeleton.openingsAtZOmega.toList.foldr
    (fun eval value => fusedMulAdd value deepPolyAlpha eval) 0
  let extraFactor := powWithFma deepPolyAlpha (BitVec.ofNat 32 layout.numOpeningsAtZ)
  (atZ, fusedMulAdd atZOmega extraFactor 0, extraFactor)

/-- A leaf value of the base field, in a buffer whose other coefficients stay zero. -/
def fuseBaseTerm (deepPolyAlpha : Q) (leafEl : F) (value : Q) : Q :=
  fusedMulAdd value deepPolyAlpha (Mersenne31Quartic.fromBase leafEl)

/-- `accumulate_over_row_for_consistency_check_with_fma`. -/
def accumulateOverRowWithFma (precomputeAtZ precomputeAtZOmega : Q) (query : QueryValues layout)
    (deepPolyAlpha extraFactor : Q) (divisorForZ divisorForZOmega : Q)
    (tauInDomainByHalf tauInDomainByHalfInversed : Mersenne31Complex) : Q :=
  let value := (Mersenne31Quartic.fromCoeffsInBase query.quotientLeaf).mulByComplex
    tauInDomainByHalfInversed
  let value := (quarticsOfElements (query.stage2Leaf.toList.drop layout.ext4PolysOffset)).foldr
    (fun leafEl value => fusedMulAdd value deepPolyAlpha leafEl) value
  let value := (query.stage2Leaf.toList.take layout.numBaseFieldPolys).foldr
    (fuseBaseTerm deepPolyAlpha) value
  let value := query.memoryLeaf.toList.foldr (fuseBaseTerm deepPolyAlpha) value
  let value := query.witnessLeaf.toList.foldr (fuseBaseTerm deepPolyAlpha) value
  let value := query.setupLeaf.toList.foldr (fuseBaseTerm deepPolyAlpha) value
  let accumulatedAtZ := value.mulByComplex tauInDomainByHalf
  let simulatedFromZ := (precomputeAtZ - accumulatedAtZ) * divisorForZ
  let value := (quarticsOfElements (query.stage2Leaf.toList.drop
    (layout.ext4PolysOffset +
      (layout.memoryGrandProductAccumulatorPolyIndex - layout.numBaseFieldPolys) * 4))).head?.getD 0
  let value := layout.memoryNextRowOpeningIndexes.foldr
    (fun index => fuseBaseTerm deepPolyAlpha (query.memoryLeaf.toList[index]?.getD 0)) value
  let value := layout.witnessNextRowOpeningIndexes.foldr
    (fun index => fuseBaseTerm deepPolyAlpha (query.witnessLeaf.toList[index]?.getD 0)) value
  let value := fusedMulAdd value extraFactor 0
  let accumulatedAtZOmega := value.mulByComplex tauInDomainByHalf
  let simulatedFromZOmega := (precomputeAtZOmega - accumulatedAtZOmega) * divisorForZOmega
  simulatedFromZ + simulatedFromZOmega

/-! ## The divisors of a query -/

/-- The products before every element, zeros left out, and whether there was a zero. -/
def forwardProducts (state : List Q × Q × Bool) (el : Q) : List Q × Q × Bool :=
  let (buffer, accumulator, zeroEncountered) := state
  if el = 0 then (buffer ++ [accumulator], accumulator, true)
  else (buffer ++ [accumulator], accumulator * el, zeroEncountered)

/-- An element becomes its inverse, and leaves the inverse of the product. -/
def backwardInverse (entry : Q × Q) (state : List Q × Q) : List Q × Q :=
  let (tmp, original) := entry
  let (results, grandInverse) := state
  if original = 0 then (original :: results, grandInverse)
  else (tmp * grandInverse :: results, grandInverse * original)

/-- `batch_inverse_checked`, and whether no element was zero. -/
def batchInverseChecked : List Q → Option (List Q × Bool)
  | [] => some ([], true)
  | first :: rest => do
      let start : List Q × Q × Bool :=
        if first = 0 then ([1], 1, true) else ([1], first, false)
      let (buffer, accumulator, zeroEncountered) := rest.foldl forwardProducts start
      let grandInverse ← accumulator.inverse
      let (results, _) := (buffer.zip (first :: rest)).foldr backwardInverse ([], grandInverse)
      some (results, !zeroEncountered)

/-- `divisor_for_z` and `divisor_for_z_omega`. -/
def queryDivisors (z zOmega : Q) (evaluationPoint : Mersenne31Complex) : Option (Q × Q) := do
  let toInverse := [z.subComplex evaluationPoint, zOmega.subComplex evaluationPoint]
  let (inverses, allNonzero) ← batchInverseChecked toInverse
  guard (allNonzero = true)
  match inverses with
  | [divisorForZ, divisorForZOmega] => some (divisorForZ, divisorForZOmega)
  | _ => none

/-- The adjustment of leaf values in a coset. -/
structure Adjustment where
  tauInDomainByHalf : Mersenne31Complex
  tauInDomainByHalfInversed : Mersenne31Complex
  cancels : tauInDomainByHalfInversed * tauInDomainByHalf = 1

/-- The value that FRI is checked against, with stored powers. -/
def expectedValue (skeleton : ProofSkeleton layout) (query : QueryValues layout)
    (deepPolyAlpha z zOmega : Q) (evaluationPoint : Mersenne31Complex) (adjustment : Adjustment) :
    Option Q := do
  let (atZ, atZOmega, powers) := precomputeForConsistencyChecks skeleton deepPolyAlpha
  let (divisorForZ, divisorForZOmega) ← queryDivisors z zOmega evaluationPoint
  some (accumulateOverRow atZ atZOmega query powers divisorForZ divisorForZOmega
    adjustment.tauInDomainByHalf adjustment.tauInDomainByHalfInversed)

/-- The value that FRI is checked against, with fused operations. -/
def expectedValueWithFma (skeleton : ProofSkeleton layout) (query : QueryValues layout)
    (deepPolyAlpha z zOmega : Q) (evaluationPoint : Mersenne31Complex) (adjustment : Adjustment) :
    Option Q := do
  let (atZ, atZOmega, extraFactor) := precomputeForConsistencyChecksWithFma skeleton deepPolyAlpha
  let (divisorForZ, divisorForZOmega) ← queryDivisors z zOmega evaluationPoint
  some (accumulateOverRowWithFma atZ atZOmega query deepPolyAlpha extraFactor divisorForZ
    divisorForZOmega adjustment.tauInDomainByHalf adjustment.tauInDomainByHalfInversed)

/-! ## Polynomials -/

/-- A committed polynomial, by its oracle and its number there. -/
inductive DeepPoly where
  | setup (index : Nat)
  | witness (index : Nat)
  | memory (index : Nat)
  | stage2 (index : Nat)
  | quotient
deriving DecidableEq

/-- The polynomials of all oracles but the quotient. -/
def tracePolys (layout : DeepLayout) : List DeepPoly :=
  (List.range layout.setupWidth).map .setup ++ (List.range layout.witnessWidth).map .witness ++
    (List.range layout.memoryWidth).map .memory ++
    (List.range (layout.numBaseFieldPolys + layout.numExt4FieldPolys)).map .stage2

/-- All polynomials, which are all opened at `z`. -/
def polysAtZ (layout : DeepLayout) : List DeepPoly := tracePolys layout ++ [.quotient]

/-- The polynomials that are opened at the next row too. -/
def polysAtZOmega (layout : DeepLayout) : List DeepPoly :=
  layout.witnessNextRowOpeningIndexes.map .witness ++
    layout.memoryNextRowOpeningIndexes.map .memory ++
    [.stage2 layout.memoryGrandProductAccumulatorPolyIndex]

/-- The opening of a polynomial at `z`: the verifier splits the openings by oracle. -/
def openingAtZ (skeleton : ProofSkeleton layout) (poly : DeepPoly) : Q :=
  let openings := skeleton.openingsAtZ.toList
  let afterSetup := openings.drop layout.setupWidth
  let afterWitness := afterSetup.drop layout.witnessWidth
  let afterMemory := afterWitness.drop layout.memoryWidth
  let afterStage2 := afterMemory.drop (layout.numBaseFieldPolys + layout.numExt4FieldPolys)
  match poly with
  | .setup index => openings[index]?.getD 0
  | .witness index => afterSetup[index]?.getD 0
  | .memory index => afterWitness[index]?.getD 0
  | .stage2 index => afterMemory[index]?.getD 0
  | .quotient => afterStage2[0]?.getD 0

/-- What a leaf holds for a polynomial. -/
def leafValue (query : QueryValues layout) : DeepPoly → Q
  | .setup index => .fromBase (query.setupLeaf.toList[index]?.getD 0)
  | .witness index => .fromBase (query.witnessLeaf.toList[index]?.getD 0)
  | .memory index => .fromBase (query.memoryLeaf.toList[index]?.getD 0)
  | .stage2 index =>
      if index < layout.numBaseFieldPolys then
        .fromBase (query.stage2Leaf.toList[index]?.getD 0)
      else
        (quarticsOfElements (query.stage2Leaf.toList.drop
          (layout.ext4PolysOffset + (index - layout.numBaseFieldPolys) * 4))).head?.getD 0
  | .quotient => .fromCoeffsInBase query.quotientLeaf

/-- The value of a polynomial at the point of the query.  Leaves of all oracles but the quotient
are adjusted. -/
def valueAtPoint (query : QueryValues layout) (adjustment : Adjustment) (poly : DeepPoly) : Q :=
  match poly with
  | .quotient => leafValue query poly
  | _ => (leafValue query poly).mulByComplex adjustment.tauInDomainByHalf

/-- The DEEP sum: every polynomial with its opening, divided by the distance of the points. -/
def deepSum (skeleton : ProofSkeleton layout) (query : QueryValues layout)
    (deepPolyAlpha z zOmega : Q) (evaluationPoint : Mersenne31Complex) (adjustment : Adjustment) :
    Q :=
  let x := Mersenne31Quartic.fromComplex evaluationPoint
  Horner.powerSum deepPolyAlpha 0
      ((polysAtZ layout).map fun poly =>
        (valueAtPoint query adjustment poly - openingAtZ skeleton poly) / (x - z)) +
    Horner.powerSum deepPolyAlpha layout.numOpeningsAtZ
      (List.zipWith
        (fun poly opening => (valueAtPoint query adjustment poly - opening) / (x - zOmega))
        (polysAtZOmega layout) skeleton.openingsAtZOmega.toList)

/-! ## Both accumulations are Horner's rule -/

theorem addBaseTerm_eq (powers : List Q) (state : Nat × Q) (leafEl : F) :
    addBaseTerm powers state leafEl = addExtTerm powers state (.fromBase leafEl) := by
  rw [addBaseTerm, addExtTerm, Mersenne31Quartic.mulByBase_eq]

theorem foldl_addBaseTerm (powers : List Q) (state : Nat × Q) (els : List F) :
    els.foldl (addBaseTerm powers) state =
      (els.map Mersenne31Quartic.fromBase).foldl (addExtTerm powers) state := by
  have same : addBaseTerm powers =
      fun state leafEl => addExtTerm powers state (.fromBase leafEl) := by
    funext state leafEl
    exact addBaseTerm_eq powers state leafEl
  rw [List.foldl_map, same]

/-- The powers that are stored. -/
def powersUpTo (deepPolyAlpha : Q) (count : Nat) : List Q :=
  (List.range count).map fun i => deepPolyAlpha ^ i

theorem getD_powersUpTo (deepPolyAlpha : Q) {i count : Nat} (inside : i < count) :
    (powersUpTo deepPolyAlpha count)[i]?.getD 0 = deepPolyAlpha ^ i := by
  rw [powersUpTo, List.getElem?_map, List.getElem?_range inside]
  rfl

theorem foldl_addExtTerm (deepPolyAlpha : Q) {count : Nat} (els : List Q) {i : Nat} (sum : Q)
    (inside : i + els.length ≤ count) :
    els.foldl (addExtTerm (powersUpTo deepPolyAlpha count)) (i, sum) =
      (i + els.length, sum + deepPolyAlpha ^ i * Horner.eval deepPolyAlpha els) := by
  induction els generalizing i sum with
  | nil => rw [List.foldl_nil, List.length_nil, Nat.add_zero, Horner.eval_nil, mul_zero, add_zero]
  | cons el els inductionHypothesis =>
      rw [List.length_cons] at inside
      have current : i < count := by omega
      rw [List.foldl_cons, addExtTerm, getD_powersUpTo deepPolyAlpha current,
        inductionHypothesis _ (by omega), List.length_cons, Horner.eval_cons, pow_succ]
      apply Prod.ext
      · exact Nat.add_right_comm i 1 els.length
      · ring

theorem foldl_precomputeTerm (deepPolyAlpha : Q) (openings : List Q) (start : Nat) (sum : Q) :
    openings.foldl (precomputeTerm deepPolyAlpha)
        (powersUpTo deepPolyAlpha start, sum, deepPolyAlpha ^ start) =
      (powersUpTo deepPolyAlpha (start + openings.length),
        sum + deepPolyAlpha ^ start * Horner.eval deepPolyAlpha openings,
        deepPolyAlpha ^ (start + openings.length)) := by
  induction openings generalizing start sum with
  | nil =>
      rw [List.foldl_nil, List.length_nil, Nat.add_zero, Horner.eval_nil, mul_zero, add_zero]
  | cons opening openings inductionHypothesis =>
      have stored : powersUpTo deepPolyAlpha start ++ [deepPolyAlpha ^ start] =
          powersUpTo deepPolyAlpha (start + 1) := by
        rw [powersUpTo, powersUpTo, List.range_succ, List.map_append]
        rfl
      rw [List.foldl_cons, precomputeTerm, stored, ← pow_succ, inductionHypothesis,
        List.length_cons, Horner.eval_cons, Nat.add_right_comm, Nat.add_assoc, pow_succ]
      refine Prod.ext rfl (Prod.ext ?_ rfl)
      ring

theorem precomputeForConsistencyChecks_eq (skeleton : ProofSkeleton layout) (deepPolyAlpha : Q) :
    precomputeForConsistencyChecks skeleton deepPolyAlpha =
      (Horner.eval deepPolyAlpha skeleton.openingsAtZ.toList,
        deepPolyAlpha ^ layout.numOpeningsAtZ *
          Horner.eval deepPolyAlpha skeleton.openingsAtZOmega.toList,
        powersUpTo deepPolyAlpha (layout.numOpeningsAtZ + layout.numOpeningsAtZOmega)) := by
  have first := foldl_precomputeTerm deepPolyAlpha skeleton.openingsAtZ.toList 0 0
  have second := foldl_precomputeTerm deepPolyAlpha skeleton.openingsAtZOmega.toList
    layout.numOpeningsAtZ 0
  have none : powersUpTo deepPolyAlpha 0 = [] := rfl
  rw [none, pow_zero, Vector.length_toList, Nat.zero_add, zero_add, one_mul] at first
  rw [Vector.length_toList, zero_add] at second
  rw [precomputeForConsistencyChecks, first]
  dsimp only
  rw [second]

theorem fusedMulAdd_zero (value factor : Q) : fusedMulAdd value factor 0 = value * factor :=
  add_zero _

theorem powWithFmaLoop_eq (base result : Q) {exp bits : Nat} (bound : exp < 2 ^ bits) :
    powWithFmaLoop base result exp bits = result * base ^ exp := by
  induction bits generalizing base result exp with
  | zero =>
      have zero : exp = 0 := Nat.lt_one_iff.mp bound
      rw [zero, pow_zero, mul_one]
      rfl
  | succ bits inductionHypothesis =>
      by_cases finished : exp = 0
      · rw [powWithFmaLoop, if_pos finished, finished, pow_zero, mul_one]
      · have half : exp / 2 < 2 ^ bits := by
          rw [Nat.pow_succ] at bound
          omega
        rw [powWithFmaLoop, if_neg finished, inductionHypothesis _ _ half, fusedMulAdd_zero,
          fusedMulAdd_zero, ← pow_two, ← pow_mul]
        by_cases odd : exp % 2 = 1
        · have split : exp = 2 * (exp / 2) + 1 := by omega
          rw [if_pos odd, mul_assoc, ← pow_succ', ← split]
        · have split : exp = 2 * (exp / 2) := by omega
          rw [if_neg odd, ← split]

theorem powWithFma_numOpeningsAtZ (layout : DeepLayout) (base : Q) :
    powWithFma base (BitVec.ofNat 32 layout.numOpeningsAtZ) = base ^ layout.numOpeningsAtZ := by
  have fits : layout.numOpeningsAtZ < 2 ^ 32 := layout.fits
  rw [powWithFma, powWithFmaLoop_eq _ _ (BitVec.isLt _), BitVec.toNat_ofNat,
    Nat.mod_eq_of_lt fits, one_mul]

theorem foldr_fusedMulAdd (deepPolyAlpha : Q) (els : List Q) (value : Q) :
    els.foldr (fun leafEl value => fusedMulAdd value deepPolyAlpha leafEl) value =
      Horner.eval deepPolyAlpha els + deepPolyAlpha ^ els.length * value :=
  Horner.foldr_eq deepPolyAlpha els value

theorem foldr_fuseBaseTerm (deepPolyAlpha : Q) (els : List F) (value : Q) :
    els.foldr (fuseBaseTerm deepPolyAlpha) value =
      (els.map Mersenne31Quartic.fromBase).foldr
        (fun leafEl value => fusedMulAdd value deepPolyAlpha leafEl) value := by
  rw [List.foldr_map]
  rfl

theorem precomputeForConsistencyChecksWithFma_eq (skeleton : ProofSkeleton layout)
    (deepPolyAlpha : Q) :
    precomputeForConsistencyChecksWithFma skeleton deepPolyAlpha =
      (Horner.eval deepPolyAlpha skeleton.openingsAtZ.toList,
        deepPolyAlpha ^ layout.numOpeningsAtZ *
          Horner.eval deepPolyAlpha skeleton.openingsAtZOmega.toList,
        deepPolyAlpha ^ layout.numOpeningsAtZ) := by
  rw [precomputeForConsistencyChecksWithFma, powWithFma_numOpeningsAtZ, fusedMulAdd_zero,
    mul_comm]
  rfl

/-! ## Leaf values -/

/-- The leaf values of all polynomials but the quotient. -/
def leafValues (query : QueryValues layout) : List Q :=
  query.setupLeaf.toList.map .fromBase ++ query.witnessLeaf.toList.map .fromBase ++
    query.memoryLeaf.toList.map .fromBase ++
    (query.stage2Leaf.toList.take layout.numBaseFieldPolys).map .fromBase ++
    quarticsOfElements (query.stage2Leaf.toList.drop layout.ext4PolysOffset)

/-- The leaf value of the accumulator of the grand product. -/
def accumulatorLeaf (query : QueryValues layout) : Q :=
  (quarticsOfElements (query.stage2Leaf.toList.drop
    (layout.ext4PolysOffset +
      (layout.memoryGrandProductAccumulatorPolyIndex - layout.numBaseFieldPolys) * 4))).head?.getD 0

/-- The leaf values of the base field that are opened at the next row too. -/
def nextRowValues (query : QueryValues layout) : List Q :=
  (layout.witnessNextRowOpeningIndexes.map fun index =>
      .fromBase (query.witnessLeaf.toList[index]?.getD 0)) ++
    layout.memoryNextRowOpeningIndexes.map fun index =>
      .fromBase (query.memoryLeaf.toList[index]?.getD 0)

theorem length_quarticsOfElements (els : List F) :
    (quarticsOfElements els).length = els.length / 4 := by
  induction els using quarticsOfElements.induct with
  | case1 c0 c1 c2 c3 rest inductionHypothesis =>
      rw [quarticsOfElements, List.length_cons, inductionHypothesis]
      simp only [List.length_cons]
      omega
  | case2 els short =>
      rw [quarticsOfElements.eq_2 els short, List.length_nil]
      have few : els.length < 4 := by
        rcases els with _ | ⟨c0, _ | ⟨c1, _ | ⟨c2, _ | ⟨c3, rest⟩⟩⟩⟩
        · exact Nat.succ_pos 3
        · exact Nat.succ_lt_succ (Nat.succ_pos 2)
        · exact Nat.succ_lt_succ (Nat.succ_lt_succ (Nat.succ_pos 1))
        · exact Nat.succ_lt_succ (Nat.succ_lt_succ (Nat.succ_lt_succ (Nat.succ_pos 0)))
        · exact absurd rfl (short c0 c1 c2 c3 rest)
      omega

theorem quarticsOfElements_drop (els : List F) (j : Nat) :
    quarticsOfElements (els.drop (j * 4)) = (quarticsOfElements els).drop j := by
  induction j generalizing els with
  | zero => rw [Nat.zero_mul, List.drop_zero, List.drop_zero]
  | succ j inductionHypothesis =>
      have step : (els.drop 4).drop (j * 4) = els.drop ((j + 1) * 4) := by
        rw [List.drop_drop]
        congr 1
        omega
      rw [← step, inductionHypothesis]
      rcases els with _ | ⟨c0, _ | ⟨c1, _ | ⟨c2, _ | ⟨c3, rest⟩⟩⟩⟩
      · simp only [List.drop_nil, quarticsOfElements]
      · simp only [List.drop_succ_cons, List.drop_nil, quarticsOfElements]
      · simp only [List.drop_succ_cons, List.drop_nil, quarticsOfElements]
      · simp only [List.drop_succ_cons, List.drop_nil, quarticsOfElements]
      · rw [quarticsOfElements, List.drop_succ_cons, List.drop_succ_cons, List.drop_succ_cons,
          List.drop_succ_cons, List.drop_zero, List.drop_succ_cons]

theorem length_ext4Leaf (query : QueryValues layout) :
    (quarticsOfElements (query.stage2Leaf.toList.drop layout.ext4PolysOffset)).length =
      layout.numExt4FieldPolys := by
  rw [length_quarticsOfElements, List.length_drop, Vector.length_toList, DeepLayout.stage2Width]
  omega

theorem length_baseLeaf (query : QueryValues layout) :
    (query.stage2Leaf.toList.take layout.numBaseFieldPolys).length = layout.numBaseFieldPolys := by
  have le := layout.base_le
  rw [List.length_take, Vector.length_toList, DeepLayout.stage2Width]
  omega

theorem length_leafValues (query : QueryValues layout) :
    (leafValues query).length + 1 = layout.numOpeningsAtZ := by
  rw [leafValues, List.length_append, List.length_append, List.length_append, List.length_append,
    List.length_map, List.length_map, List.length_map, List.length_map, length_ext4Leaf,
    length_baseLeaf, Vector.length_toList, Vector.length_toList, Vector.length_toList,
    DeepLayout.numOpeningsAtZ]

theorem length_nextRowValues (query : QueryValues layout) :
    (nextRowValues query).length + 1 = layout.numOpeningsAtZOmega := by
  rw [nextRowValues, List.length_append, List.length_map, List.length_map,
    DeepLayout.numOpeningsAtZOmega]

/-- The value of both accumulations, for the sums over the leaf values. -/
def combine (precomputeAtZ precomputeAtZOmega accumulatedAtZ accumulatedAtZOmega : Q)
    (divisorForZ divisorForZOmega : Q) (tau : Mersenne31Complex) : Q :=
  (precomputeAtZ - accumulatedAtZ.mulByComplex tau) * divisorForZ +
    (precomputeAtZOmega - accumulatedAtZOmega.mulByComplex tau) * divisorForZOmega

theorem accumulateOverRow_eq (query : QueryValues layout) (deepPolyAlpha : Q)
    (precomputeAtZ precomputeAtZOmega divisorForZ divisorForZOmega : Q)
    (tau tauInversed : Mersenne31Complex) :
    accumulateOverRow precomputeAtZ precomputeAtZOmega query
        (powersUpTo deepPolyAlpha (layout.numOpeningsAtZ + layout.numOpeningsAtZOmega))
        divisorForZ divisorForZOmega tau tauInversed =
      combine precomputeAtZ precomputeAtZOmega
        (Horner.eval deepPolyAlpha (leafValues query ++
          [(Mersenne31Quartic.fromCoeffsInBase query.quotientLeaf).mulByComplex tauInversed]))
        (deepPolyAlpha ^ layout.numOpeningsAtZ *
          Horner.eval deepPolyAlpha (nextRowValues query ++ [accumulatorLeaf query]))
        divisorForZ divisorForZOmega tau := by
  have atZ := length_leafValues query
  have atZOmega := length_nextRowValues query
  let count := layout.numOpeningsAtZ + layout.numOpeningsAtZOmega
  have first := @foldl_addExtTerm deepPolyAlpha count (leafValues query) 0 0 (by omega)
  have second := @foldl_addExtTerm deepPolyAlpha count (nextRowValues query)
    layout.numOpeningsAtZ 0 (by omega)
  have quotientPower := @getD_powersUpTo deepPolyAlpha (leafValues query).length count (by omega)
  have accumulatorPower := @getD_powersUpTo deepPolyAlpha
    (layout.numOpeningsAtZ + (nextRowValues query).length) count (by omega)
  rw [Nat.zero_add, zero_add, pow_zero, one_mul] at first
  rw [zero_add] at second
  have firstGroups : (quarticsOfElements (query.stage2Leaf.toList.drop
      layout.ext4PolysOffset)).foldl (addExtTerm (powersUpTo deepPolyAlpha count))
      ((query.stage2Leaf.toList.take layout.numBaseFieldPolys).foldl
        (addBaseTerm (powersUpTo deepPolyAlpha count))
        (query.memoryLeaf.toList.foldl (addBaseTerm (powersUpTo deepPolyAlpha count))
          (query.witnessLeaf.toList.foldl (addBaseTerm (powersUpTo deepPolyAlpha count))
            (query.setupLeaf.toList.foldl (addBaseTerm (powersUpTo deepPolyAlpha count))
              (0, 0))))) =
        ((leafValues query).length, Horner.eval deepPolyAlpha (leafValues query)) := by
    rw [foldl_addBaseTerm, foldl_addBaseTerm, foldl_addBaseTerm, foldl_addBaseTerm,
      ← List.foldl_append, ← List.foldl_append, ← List.foldl_append, ← List.foldl_append,
      ← first, leafValues, List.append_assoc, List.append_assoc, List.append_assoc]
  have secondGroups : layout.memoryNextRowOpeningIndexes.foldl
      (fun state index => addBaseTerm (powersUpTo deepPolyAlpha count) state
        (query.memoryLeaf.toList[index]?.getD 0))
      (layout.witnessNextRowOpeningIndexes.foldl
        (fun state index => addBaseTerm (powersUpTo deepPolyAlpha count) state
          (query.witnessLeaf.toList[index]?.getD 0)) ((leafValues query).length + 1, 0)) =
        (layout.numOpeningsAtZ + (nextRowValues query).length,
          deepPolyAlpha ^ layout.numOpeningsAtZ *
            Horner.eval deepPolyAlpha (nextRowValues query)) := by
    rw [← second, nextRowValues, List.foldl_append, List.foldl_map, List.foldl_map, atZ]
    simp only [addBaseTerm_eq]
  rw [accumulateOverRow, firstGroups]
  dsimp only
  rw [secondGroups, quotientPower, accumulatorPower, combine, Horner.eval_append,
    Horner.eval_append, Horner.eval_singleton, Horner.eval_singleton, ← accumulatorLeaf]
  simp only [Mersenne31Quartic.mulByComplex_eq]
  ring

theorem accumulateOverRowWithFma_eq (query : QueryValues layout) (deepPolyAlpha : Q)
    (precomputeAtZ precomputeAtZOmega divisorForZ divisorForZOmega : Q)
    (tau tauInversed : Mersenne31Complex) :
    accumulateOverRowWithFma precomputeAtZ precomputeAtZOmega query deepPolyAlpha
        (deepPolyAlpha ^ layout.numOpeningsAtZ) divisorForZ divisorForZOmega tau tauInversed =
      combine precomputeAtZ precomputeAtZOmega
        (Horner.eval deepPolyAlpha (leafValues query ++
          [(Mersenne31Quartic.fromCoeffsInBase query.quotientLeaf).mulByComplex tauInversed]))
        (deepPolyAlpha ^ layout.numOpeningsAtZ *
          Horner.eval deepPolyAlpha (nextRowValues query ++ [accumulatorLeaf query]))
        divisorForZ divisorForZOmega tau := by
  have first (value : Q) : query.setupLeaf.toList.foldr (fuseBaseTerm deepPolyAlpha)
      (query.witnessLeaf.toList.foldr (fuseBaseTerm deepPolyAlpha)
        (query.memoryLeaf.toList.foldr (fuseBaseTerm deepPolyAlpha)
          ((query.stage2Leaf.toList.take layout.numBaseFieldPolys).foldr
            (fuseBaseTerm deepPolyAlpha)
            ((quarticsOfElements (query.stage2Leaf.toList.drop layout.ext4PolysOffset)).foldr
              (fun leafEl value => fusedMulAdd value deepPolyAlpha leafEl) value)))) =
      Horner.eval deepPolyAlpha (leafValues query) +
        deepPolyAlpha ^ (leafValues query).length * value := by
    rw [foldr_fuseBaseTerm, foldr_fuseBaseTerm, foldr_fuseBaseTerm, foldr_fuseBaseTerm,
      ← List.foldr_append, ← List.foldr_append, ← List.foldr_append, ← List.foldr_append,
      ← foldr_fusedMulAdd, leafValues]
  have second (value : Q) : layout.witnessNextRowOpeningIndexes.foldr
      (fun index => fuseBaseTerm deepPolyAlpha (query.witnessLeaf.toList[index]?.getD 0))
      (layout.memoryNextRowOpeningIndexes.foldr
        (fun index => fuseBaseTerm deepPolyAlpha (query.memoryLeaf.toList[index]?.getD 0))
        value) =
      Horner.eval deepPolyAlpha (nextRowValues query) +
        deepPolyAlpha ^ (nextRowValues query).length * value := by
    rw [← foldr_fusedMulAdd, nextRowValues, List.foldr_append, List.foldr_map, List.foldr_map]
    rfl
  rw [accumulateOverRowWithFma, first, second, fusedMulAdd_zero, combine, Horner.eval_append, Horner.eval_append,
    Horner.eval_singleton, Horner.eval_singleton, ← accumulatorLeaf]
  simp only [Mersenne31Quartic.mulByComplex_eq]
  ring

/-! ## The divisors -/

/-- The inverses of two elements that are not zero. -/
theorem batchInverseChecked_pair {a b : Q} (first : a ≠ 0) (second : b ≠ 0) :
    batchInverseChecked [a, b] = some ([a⁻¹, b⁻¹], true) := by
  have product : a * b ≠ 0 := mul_ne_zero first second
  have last : a * (a * b)⁻¹ = b⁻¹ := by
    field_simp
  have head : 1 * ((a * b)⁻¹ * b) = a⁻¹ := by
    field_simp
  simp only [batchInverseChecked, List.foldl_cons, List.foldl_nil, forwardProducts, if_neg first,
    if_neg second, Mersenne31Quartic.inverse_eq product, Option.bind_eq_bind, Option.bind_some,
    List.cons_append, List.nil_append, List.zip_cons_cons, List.zip_nil_left, List.foldr_cons,
    List.foldr_nil, backwardInverse, last, head, Bool.not_false]

theorem queryDivisors_eq {z zOmega : Q} {evaluationPoint : Mersenne31Complex}
    (first : z ≠ Mersenne31Quartic.fromComplex evaluationPoint)
    (second : zOmega ≠ Mersenne31Quartic.fromComplex evaluationPoint) :
    queryDivisors z zOmega evaluationPoint =
      some ((z - Mersenne31Quartic.fromComplex evaluationPoint)⁻¹,
        (zOmega - Mersenne31Quartic.fromComplex evaluationPoint)⁻¹) := by
  rw [queryDivisors, Mersenne31Quartic.subComplex_eq, Mersenne31Quartic.subComplex_eq,
    batchInverseChecked_pair (sub_ne_zero_of_ne first) (sub_ne_zero_of_ne second)]
  rfl

/-! ## The sum over polynomials -/

theorem map_getElem_range {α : Type} (items : List α) (default : α) :
    (List.range items.length).map (fun index => items[index]?.getD default) = items := by
  apply List.ext_getElem?
  intro index
  rw [List.getElem?_map]
  rcases Nat.lt_or_ge index items.length with inside | outside
  · rw [List.getElem?_range inside, Option.map_some, List.getElem?_eq_getElem inside,
      Option.getD_some]
  · rw [List.getElem?_eq_none (by rwa [List.length_range]), List.getElem?_eq_none outside]
    rfl

theorem map_getElem_range_vector {α : Type} {n : Nat} (items : Vector α n) (default : α) :
    (List.range n).map (fun index => items.toList[index]?.getD default) = items.toList := by
  have all := map_getElem_range items.toList default
  rwa [Vector.length_toList] at all

/-- The leaf values of stage 2, of both kinds. -/
theorem map_leafValue_stage2 (query : QueryValues layout) :
    (List.range (layout.numBaseFieldPolys + layout.numExt4FieldPolys)).map
        (fun index => leafValue query (.stage2 index)) =
      (query.stage2Leaf.toList.take layout.numBaseFieldPolys).map Mersenne31Quartic.fromBase ++
        quarticsOfElements (query.stage2Leaf.toList.drop layout.ext4PolysOffset) := by
  have base : (List.range layout.numBaseFieldPolys).map
      (fun index => leafValue query (.stage2 index)) =
        (query.stage2Leaf.toList.take layout.numBaseFieldPolys).map
          Mersenne31Quartic.fromBase := by
    have all := map_getElem_range (query.stage2Leaf.toList.take layout.numBaseFieldPolys) 0
    rw [length_baseLeaf] at all
    conv_rhs => rw [← all, List.map_map]
    apply List.map_congr_left
    intro index member
    have below := List.mem_range.mp member
    rw [leafValue, if_pos below, Function.comp_apply, List.getElem?_take_of_lt below]
  have ext4 : (List.range layout.numExt4FieldPolys).map
      (fun index => leafValue query (.stage2 (layout.numBaseFieldPolys + index))) =
        quarticsOfElements (query.stage2Leaf.toList.drop layout.ext4PolysOffset) := by
    have all := map_getElem_range
      (quarticsOfElements (query.stage2Leaf.toList.drop layout.ext4PolysOffset)) 0
    rw [length_ext4Leaf] at all
    conv_rhs => rw [← all]
    apply List.map_congr_left
    intro index _
    have above : ¬ layout.numBaseFieldPolys + index < layout.numBaseFieldPolys := by omega
    rw [leafValue, if_neg above, Nat.add_sub_cancel_left, ← List.drop_drop,
      quarticsOfElements_drop, List.head?_drop]
  rw [List.range_add, List.map_append, List.map_map, base]
  exact congrArg _ ext4

theorem map_leafValue_tracePolys (query : QueryValues layout) :
    (tracePolys layout).map (leafValue query) = leafValues query := by
  have setup := map_getElem_range_vector query.setupLeaf 0
  have witness := map_getElem_range_vector query.witnessLeaf 0
  have memory := map_getElem_range_vector query.memoryLeaf 0
  have stage2 := map_leafValue_stage2 query
  rw [tracePolys, List.map_append, List.map_append, List.map_append, List.map_map, List.map_map,
    List.map_map, List.map_map]
  change (((List.range layout.setupWidth).map fun index =>
      Mersenne31Quartic.fromBase (query.setupLeaf.toList[index]?.getD 0)) ++
    ((List.range layout.witnessWidth).map fun index =>
      Mersenne31Quartic.fromBase (query.witnessLeaf.toList[index]?.getD 0))) ++
    ((List.range layout.memoryWidth).map fun index =>
      Mersenne31Quartic.fromBase (query.memoryLeaf.toList[index]?.getD 0)) ++
    ((List.range (layout.numBaseFieldPolys + layout.numExt4FieldPolys)).map fun index =>
      leafValue query (.stage2 index)) = _
  rw [stage2, leafValues]
  conv_rhs => rw [← setup, ← witness, ← memory]
  simp only [List.map_map, List.append_assoc]
  rfl

theorem map_leafValue_polysAtZOmega (query : QueryValues layout) :
    (polysAtZOmega layout).map (leafValue query) =
      nextRowValues query ++ [accumulatorLeaf query] := by
  have above : ¬ layout.memoryGrandProductAccumulatorPolyIndex < layout.numBaseFieldPolys :=
    Nat.not_lt.mpr layout.accumulator_ge
  have accumulator : leafValue query (.stage2 layout.memoryGrandProductAccumulatorPolyIndex) =
      accumulatorLeaf query := by
    rw [leafValue, if_neg above, accumulatorLeaf]
  rw [polysAtZOmega, List.map_append, List.map_append, List.map_map, List.map_map,
    List.map_singleton, accumulator]
  rfl

/-- Splitting the openings by oracle loses none of them. -/
theorem map_openingAtZ_polysAtZ (skeleton : ProofSkeleton layout) :
    (polysAtZ layout).map (openingAtZ skeleton) = skeleton.openingsAtZ.toList := by
  have pieces (items : List Q) (count : Nat) (enough : count ≤ items.length) :
      (List.range count).map (fun index => items[index]?.getD 0) = items.take count := by
    have all := map_getElem_range (items.take count) 0
    rw [List.length_take, Nat.min_eq_left enough] at all
    rw [← all]
    apply List.map_congr_left
    intro index member
    rw [List.getElem?_take_of_lt (List.mem_range.mp member)]
  have length : skeleton.openingsAtZ.toList.length = layout.numOpeningsAtZ := Vector.length_toList
  have total : layout.numOpeningsAtZ = layout.setupWidth + layout.witnessWidth +
      layout.memoryWidth + layout.numBaseFieldPolys + layout.numExt4FieldPolys + 1 := rfl
  let openings := skeleton.openingsAtZ.toList
  let afterSetup := openings.drop layout.setupWidth
  let afterWitness := afterSetup.drop layout.witnessWidth
  let afterMemory := afterWitness.drop layout.memoryWidth
  let afterStage2 := afterMemory.drop (layout.numBaseFieldPolys + layout.numExt4FieldPolys)
  have lengthSetup : afterSetup.length = openings.length - layout.setupWidth := List.length_drop
  have lengthWitness : afterWitness.length = afterSetup.length - layout.witnessWidth :=
    List.length_drop
  have lengthMemory : afterMemory.length = afterWitness.length - layout.memoryWidth :=
    List.length_drop
  have lengthStage2 : afterStage2.length =
      afterMemory.length - (layout.numBaseFieldPolys + layout.numExt4FieldPolys) :=
    List.length_drop
  have start : openings.length = layout.numOpeningsAtZ := length
  have setup := pieces openings layout.setupWidth (by omega)
  have witness := pieces afterSetup layout.witnessWidth (by omega)
  have memory := pieces afterWitness layout.memoryWidth (by omega)
  have stage2 := pieces afterMemory (layout.numBaseFieldPolys + layout.numExt4FieldPolys)
    (by omega)
  have quotient : [afterStage2[0]?.getD 0] = afterStage2 := by
    have one : afterStage2.length = 1 := by omega
    obtain ⟨opening, single⟩ := List.length_eq_one_iff.mp one
    rw [single]
    rfl
  rw [polysAtZ, tracePolys, List.map_append, List.map_append, List.map_append, List.map_append,
    List.map_map, List.map_map, List.map_map, List.map_map, List.map_singleton]
  change ((((List.range layout.setupWidth).map fun index => openings[index]?.getD 0) ++
    ((List.range layout.witnessWidth).map fun index => afterSetup[index]?.getD 0)) ++
    ((List.range layout.memoryWidth).map fun index => afterWitness[index]?.getD 0)) ++
    ((List.range (layout.numBaseFieldPolys + layout.numExt4FieldPolys)).map fun index =>
      afterMemory[index]?.getD 0) ++ [afterStage2[0]?.getD 0] = openings
  rw [setup, witness, memory, stage2, quotient, List.append_assoc, List.take_append_drop,
    List.append_assoc, List.take_append_drop, List.append_assoc, List.take_append_drop,
    List.take_append_drop]

/-- What the leaves hold is adjusted, and the quotient is not. -/
theorem valueAtPoint_eq (query : QueryValues layout) (adjustment : Adjustment)
    {poly : DeepPoly} (adjusted : poly ≠ .quotient) :
    valueAtPoint query adjustment poly =
      leafValue query poly *
        Mersenne31Quartic.fromComplex adjustment.tauInDomainByHalf := by
  rw [← Mersenne31Quartic.mulByComplex_eq]
  cases poly with
  | quotient => exact absurd rfl adjusted
  | setup index => rfl
  | witness index => rfl
  | memory index => rfl
  | stage2 index => rfl

theorem map_valueAtPoint_polysAtZ (query : QueryValues layout) (adjustment : Adjustment) :
    (polysAtZ layout).map (valueAtPoint query adjustment) =
      (leafValues query ++ [(Mersenne31Quartic.fromCoeffsInBase query.quotientLeaf).mulByComplex
        adjustment.tauInDomainByHalfInversed]).map fun value =>
          value * Mersenne31Quartic.fromComplex adjustment.tauInDomainByHalf := by
  have last : valueAtPoint query adjustment .quotient =
      (Mersenne31Quartic.fromCoeffsInBase query.quotientLeaf).mulByComplex
        adjustment.tauInDomainByHalfInversed *
          Mersenne31Quartic.fromComplex adjustment.tauInDomainByHalf := by
    rw [Mersenne31Quartic.mulByComplex_eq, mul_assoc, ← map_mul, adjustment.cancels, map_one,
      mul_one]
    rfl
  rw [polysAtZ, List.map_append, List.map_append, List.map_singleton, List.map_singleton, last,
    ← map_leafValue_tracePolys, List.map_map]
  congr 1
  apply List.map_congr_left
  intro poly member
  apply valueAtPoint_eq
  rintro rfl
  simp only [tracePolys, List.mem_append, List.mem_map, reduceCtorEq, and_false, exists_false,
    or_false] at member

theorem map_valueAtPoint_polysAtZOmega (query : QueryValues layout) (adjustment : Adjustment) :
    (polysAtZOmega layout).map (valueAtPoint query adjustment) =
      (nextRowValues query ++ [accumulatorLeaf query]).map fun value =>
        value * Mersenne31Quartic.fromComplex adjustment.tauInDomainByHalf := by
  rw [← map_leafValue_polysAtZOmega, List.map_map]
  apply List.map_congr_left
  intro poly member
  apply valueAtPoint_eq
  rintro rfl
  simp only [polysAtZOmega, List.mem_append, List.mem_map, List.mem_singleton, reduceCtorEq,
    and_false, exists_false, or_false] at member

theorem length_polysAtZOmega (layout : DeepLayout) :
    (polysAtZOmega layout).length = layout.numOpeningsAtZOmega := by
  rw [polysAtZOmega, List.length_append, List.length_append, List.length_map, List.length_map,
    List.length_singleton, DeepLayout.numOpeningsAtZOmega]

/-- A group of terms over one divisor. -/
theorem powerSum_div (deepPolyAlpha : Q) (start : Nat) {values openings : List Q}
    (length : values.length = openings.length) (x point : Q) :
    Horner.powerSum deepPolyAlpha start
        (List.zipWith (fun value opening => (value - opening) / (x - point)) values openings) =
      deepPolyAlpha ^ start *
        (Horner.eval deepPolyAlpha openings - Horner.eval deepPolyAlpha values) *
          (point - x)⁻¹ := by
  have terms : List.zipWith (fun value opening => (value - opening) / (x - point)) values openings =
      (List.zipWith (fun value opening => value - opening) values openings).map
        fun term => term * (x - point)⁻¹ := by
    rw [List.map_zipWith]
    simp only [div_eq_mul_inv]
  have opposite : (point - x)⁻¹ = -(x - point)⁻¹ := by
    rw [← inv_neg, neg_sub]
  rw [Horner.powerSum_eq, terms, Horner.eval_map_mul, Horner.eval_zipWith_sub _ length, opposite]
  ring

theorem combine_eq_deepSum (skeleton : ProofSkeleton layout) (query : QueryValues layout)
    (deepPolyAlpha z zOmega : Q) (evaluationPoint : Mersenne31Complex)
    (adjustment : Adjustment) :
    combine (Horner.eval deepPolyAlpha skeleton.openingsAtZ.toList)
        (deepPolyAlpha ^ layout.numOpeningsAtZ *
          Horner.eval deepPolyAlpha skeleton.openingsAtZOmega.toList)
        (Horner.eval deepPolyAlpha (leafValues query ++
          [(Mersenne31Quartic.fromCoeffsInBase query.quotientLeaf).mulByComplex
            adjustment.tauInDomainByHalfInversed]))
        (deepPolyAlpha ^ layout.numOpeningsAtZ *
          Horner.eval deepPolyAlpha (nextRowValues query ++ [accumulatorLeaf query]))
        (z - Mersenne31Quartic.fromComplex evaluationPoint)⁻¹
        (zOmega - Mersenne31Quartic.fromComplex evaluationPoint)⁻¹
        adjustment.tauInDomainByHalf =
      deepSum skeleton query deepPolyAlpha z zOmega evaluationPoint adjustment := by
  have atZ : Horner.eval deepPolyAlpha (leafValues query ++
      [(Mersenne31Quartic.fromCoeffsInBase query.quotientLeaf).mulByComplex
        adjustment.tauInDomainByHalfInversed]) *
          Mersenne31Quartic.fromComplex adjustment.tauInDomainByHalf =
      Horner.eval deepPolyAlpha ((polysAtZ layout).map (valueAtPoint query adjustment)) := by
    rw [← Horner.eval_map_mul, map_valueAtPoint_polysAtZ]
  have atZOmega : Horner.eval deepPolyAlpha (nextRowValues query ++ [accumulatorLeaf query]) *
          Mersenne31Quartic.fromComplex adjustment.tauInDomainByHalf =
      Horner.eval deepPolyAlpha ((polysAtZOmega layout).map (valueAtPoint query adjustment)) := by
    rw [← Horner.eval_map_mul, map_valueAtPoint_polysAtZOmega]
  have paired (point : Q) : (polysAtZ layout).map (fun poly =>
      (valueAtPoint query adjustment poly - openingAtZ skeleton poly) /
        (Mersenne31Quartic.fromComplex evaluationPoint - point)) =
      List.zipWith (fun value opening => (value - opening) /
          (Mersenne31Quartic.fromComplex evaluationPoint - point))
        ((polysAtZ layout).map (valueAtPoint query adjustment))
        ((polysAtZ layout).map (openingAtZ skeleton)) := by
    rw [List.zipWith_map, List.zipWith_self]
  have sameLength : ((polysAtZOmega layout).map (valueAtPoint query adjustment)).length =
      skeleton.openingsAtZOmega.toList.length := by
    rw [List.length_map, length_polysAtZOmega, Vector.length_toList]
  have nextRow := powerSum_div deepPolyAlpha layout.numOpeningsAtZ sameLength
    (Mersenne31Quartic.fromComplex evaluationPoint) zOmega
  rw [List.zipWith_map_left] at nextRow
  rw [deepSum, paired, powerSum_div deepPolyAlpha 0 (by rw [List.length_map, List.length_map]), nextRow,
    map_openingAtZ_polysAtZ, ← atZ, ← atZOmega, combine]
  simp only [Mersenne31Quartic.mulByComplex_eq]
  ring

/-- Both paths compute the DEEP sum of a query whose point is none of the opened ones. -/
theorem expectedValue_eq_deepSum (skeleton : ProofSkeleton layout) (query : QueryValues layout)
    (deepPolyAlpha z zOmega : Q) (evaluationPoint : Mersenne31Complex) (adjustment : Adjustment)
    (first : z ≠ Mersenne31Quartic.fromComplex evaluationPoint)
    (second : zOmega ≠ Mersenne31Quartic.fromComplex evaluationPoint) :
    expectedValueWithFma skeleton query deepPolyAlpha z zOmega evaluationPoint adjustment =
        expectedValue skeleton query deepPolyAlpha z zOmega evaluationPoint adjustment ∧
      expectedValue skeleton query deepPolyAlpha z zOmega evaluationPoint adjustment =
        some (deepSum skeleton query deepPolyAlpha z zOmega evaluationPoint adjustment) := by
  have plain : expectedValue skeleton query deepPolyAlpha z zOmega evaluationPoint adjustment =
      some (deepSum skeleton query deepPolyAlpha z zOmega evaluationPoint adjustment) := by
    rw [expectedValue, precomputeForConsistencyChecks_eq, queryDivisors_eq first second,
      ← combine_eq_deepSum]
    exact congrArg some (accumulateOverRow_eq query deepPolyAlpha _ _ _ _ _ _)
  have fused : expectedValueWithFma skeleton query deepPolyAlpha z zOmega evaluationPoint
      adjustment =
        some (deepSum skeleton query deepPolyAlpha z zOmega evaluationPoint adjustment) := by
    rw [expectedValueWithFma, precomputeForConsistencyChecksWithFma_eq,
      queryDivisors_eq first second, ← combine_eq_deepSum]
    exact congrArg some (accumulateOverRowWithFma_eq query deepPolyAlpha _ _ _ _ _ _)
  exact ⟨fused.trans plain.symm, plain⟩

/-- One column in every oracle, and one polynomial of each kind in stage 2. -/
def oneColumnLayout : DeepLayout where
  setupWidth := 1
  witnessWidth := 1
  memoryWidth := 1
  numBaseFieldPolys := 1
  numExt4FieldPolys := 1
  ext4PolysOffset := 1
  witnessNextRowOpeningIndexes := [0]
  memoryNextRowOpeningIndexes := [0]
  memoryGrandProductAccumulatorPolyIndex := 1
  base_le := by decide
  witness_lt := by decide
  memory_lt := by decide
  accumulator_ge := by decide
  accumulator_lt := by decide
  fits := by decide

/-- The adjustment by a square root of -1. -/
def imaginaryAdjustment : Adjustment :=
  ⟨⟨0, 1⟩, ⟨0, -1⟩, by decide +kernel⟩

theorem expectedValue_eq_deepSum_oneColumn :
    let skeleton : ProofSkeleton oneColumnLayout :=
      ⟨#v[2, 3, 5, 7, 11, 13], #v[17, 19, 23]⟩
    let query : QueryValues oneColumnLayout :=
      ⟨#v[1], #v[2], #v[3], #v[4, 5, 6, 7, 8], #v[9, 10, 11, 12]⟩
    expectedValueWithFma skeleton query 5 ⟨⟨2, 1⟩, ⟨0, 3⟩⟩ 3 ⟨4, 1⟩ imaginaryAdjustment =
      some (deepSum skeleton query 5 ⟨⟨2, 1⟩, ⟨0, 3⟩⟩ 3 ⟨4, 1⟩ imaginaryAdjustment) := by
  intro skeleton query
  obtain ⟨fused, plain⟩ := expectedValue_eq_deepSum skeleton query 5 ⟨⟨2, 1⟩, ⟨0, 3⟩⟩ 3 ⟨4, 1⟩
    imaginaryAdjustment (by decide +kernel) (by decide +kernel)
  rw [fused, plain]

end Airbender.Verifier
