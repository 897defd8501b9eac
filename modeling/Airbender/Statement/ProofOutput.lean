import Airbender.Lib.StreamReader
import Airbender.Statement.Challenges

/-!
# What a proof verifier returns

Merkle tree caps, boundary values and the `ProofOutput` that the verifier of one proof writes.
The verifier itself is a parameter: a reader of the words of its proof.
-/

namespace Airbender

open Circuit (F)
open StreamReader

/-- The words that a verifier reads, and what it makes of them. -/
abbrev Verifier (α : Type) : Type := Reader U32 α

/-! ## Merkle tree caps -/

def capSize : Nat := 64

def numCosets : Nat := 2

/-- `MerkleTreeCap<CAP_SIZE>`. -/
structure MerkleTreeCap where
  cap : Vector (Vector U32 8) capSize
deriving DecidableEq

/-- One cap for each coset. -/
abbrev MerkleTreeCaps : Type := Vector MerkleTreeCap numCosets

namespace MerkleTreeCap

/-- `MerkleTreeCap::dummy`. -/
def dummy : MerkleTreeCap where
  cap := Vector.replicate capSize (Vector.replicate 8 0)

/-- `MerkleTreeCap::flatten`, `memory_caps_flattened`, `caps_flattened`: the words in memory
order. -/
def flatten (caps : MerkleTreeCaps) : List U32 :=
  caps.toList.flatMap fun cap => cap.cap.toList.flatMap Vector.toList

/-- `MerkleTreeCap::compare`, word by word. -/
def compare (a b : MerkleTreeCaps) : Bool :=
  (List.finRange numCosets).all fun i => (List.finRange capSize).all fun j =>
    (List.finRange 8).all fun k => (((a.get i).cap.get j).get k) == (((b.get i).cap.get j).get k)

/-- The caps that a list of words is the flattening of. -/
def ofWords (words : List U32) : MerkleTreeCaps :=
  Vector.ofFn fun i : Fin numCosets =>
    { cap := Vector.ofFn fun j : Fin capSize =>
        Vector.ofFn fun k : Fin 8 => words[i.val * (capSize * 8) + j.val * 8 + k.val]?.getD 0 }

/-- `MerkleTreeCap::read_caps_into`. -/
def readCaps : Verifier MerkleTreeCaps := do
  let words ← Reader.tokens (8 * capSize * numCosets)
  pure (ofWords words)

theorem compare_iff {a b : MerkleTreeCaps} : compare a b = true ↔ a = b := by
  constructor
  · intro equal
    simp only [compare, List.all_eq_true, List.mem_finRange, beq_iff_eq, true_implies] at equal
    apply Vector.ext
    intro i iBound
    have caps : ∀ j : Fin capSize, a[i].cap[j] = b[i].cap[j] := by
      intro j
      apply Vector.ext
      intro k kBound
      exact equal ⟨i, iBound⟩ j ⟨k, kBound⟩
    have same : a[i].cap = b[i].cap := Vector.ext fun j jBound => caps ⟨j, jBound⟩
    cases left : a[i]
    cases right : b[i]
    rw [left, right] at same
    exact congrArg MerkleTreeCap.mk same
  · rintro rfl
    simp only [compare, List.all_eq_true, beq_self_eq_true, implies_true]

theorem length_flatMap_of_forall {α β : Type} {f : α → List β} {size : Nat}
    (length : ∀ a, (f a).length = size) (items : List α) :
    (items.flatMap f).length = items.length * size := by
  induction items with
  | nil => exact (Nat.zero_mul size).symm
  | cons item items inductionHypothesis =>
      rw [List.flatMap_cons, List.length_append, length, inductionHypothesis, List.length_cons,
        Nat.succ_mul, Nat.add_comm]

theorem getElem?_flatMap_of_forall {α β : Type} {f : α → List β} {size : Nat}
    (length : ∀ a, (f a).length = size) (items : List α) (i : Nat) {j : Nat} (inside : j < size) :
    (items.flatMap f)[i * size + j]? = items[i]?.bind fun a => (f a)[j]? := by
  induction items generalizing i with
  | nil => rfl
  | cons item items inductionHypothesis =>
      rw [List.flatMap_cons]
      cases i with
      | zero =>
          rw [Nat.zero_mul, Nat.zero_add, List.getElem?_append_left (by rw [length]; exact inside)]
          rfl
      | succ i =>
          have offset : (i + 1) * size + j - size = i * size + j := by
            rw [Nat.succ_mul]
            omega
          have later : size ≤ (i + 1) * size + j := by
            rw [Nat.succ_mul]
            omega
          rw [List.getElem?_append_right (by rw [length]; exact later), length, offset,
            inductionHypothesis, List.getElem?_cons_succ]

theorem length_digests (cap : MerkleTreeCap) :
    (cap.cap.toList.flatMap Vector.toList).length = 512 := by
  rw [length_flatMap_of_forall (fun digest => Vector.length_toList), Vector.length_toList]
  rfl

theorem length_flatten (caps : MerkleTreeCaps) : (flatten caps).length = 1024 := by
  rw [flatten, length_flatMap_of_forall length_digests, Vector.length_toList]
  rfl

/-- Caps are read back from their words. -/
theorem ofWords_flatten (caps : MerkleTreeCaps) : ofWords (flatten caps) = caps := by
  apply Vector.ext
  intro i iBound
  have cap : (ofWords (flatten caps))[i].cap = caps[i].cap := by
    apply Vector.ext
    intro j jBound
    apply Vector.ext
    intro k kBound
    simp only [ofWords, Vector.getElem_ofFn]
    have place : i * (capSize * 8) + j * 8 + k = i * 512 + (j * 8 + k) := Nat.add_assoc _ _ _
    have inside : j * 8 + k < 512 := by
      have bound : j < 64 := jBound
      omega
    rw [place, flatten, getElem?_flatMap_of_forall length_digests _ _ inside,
      Vector.getElem?_toList, Vector.getElem?_eq_getElem iBound, Option.bind_some,
      getElem?_flatMap_of_forall (fun digest => Vector.length_toList) _ _ kBound,
      Vector.getElem?_toList, Vector.getElem?_eq_getElem jBound, Option.bind_some,
      Vector.getElem?_toList, Vector.getElem?_eq_getElem kBound]
    rfl
  cases left : (ofWords (flatten caps))[i]
  cases right : caps[i]
  rw [left, right] at cap
  exact congrArg MerkleTreeCap.mk cap

end MerkleTreeCap

/-! ## Boundary values -/

/-- `AuxArgumentsBoundaryValues`: what a proof says about the first and the last used row of
its init and teardown columns, in limbs. -/
structure AuxArgumentsBoundaryValues where
  lazyInitFirstRow : Vector F 2
  teardownValueFirstRow : Vector F 2
  teardownTimestampFirstRow : Vector F 2
  lazyInitOneBeforeLastRow : Vector F 2
  teardownValueOneBeforeLastRow : Vector F 2
  teardownTimestampOneBeforeLastRow : Vector F 2
deriving DecidableEq

/-- `to_reduced_u32`. -/
def toReducedU32 (x : F) : U32 := BitVec.ofNat 32 x.val

/-- `parse_field_els_as_u32_from_u16_limbs_checked`. -/
def parseFieldElsAsU32FromU16LimbsChecked (input : Vector F 2) : Option U32 := do
  let low := toReducedU32 (input.get 0)
  let high := toReducedU32 (input.get 1)
  guard (low &&& 0xffff0000 = 0)
  guard (high &&& 0xffff0000 = 0)
  some (low ||| (high <<< 16))

structure InitAndTeardownTuple where
  address : U32
  teardownValue : U32
  teardownTsPair : U32 × U32
deriving DecidableEq

namespace InitAndTeardownTuple

def zero : InitAndTeardownTuple where
  address := 0
  teardownValue := 0
  teardownTsPair := (0, 0)

def fromAuxValuesOneBeforeLastRow (value : AuxArgumentsBoundaryValues) :
    Option InitAndTeardownTuple := do
  let address ← parseFieldElsAsU32FromU16LimbsChecked value.lazyInitOneBeforeLastRow
  let teardownValue ← parseFieldElsAsU32FromU16LimbsChecked value.teardownValueOneBeforeLastRow
  some
    { address := address
      teardownValue := teardownValue
      teardownTsPair := (toReducedU32 (value.teardownTimestampOneBeforeLastRow.get 0),
        toReducedU32 (value.teardownTimestampOneBeforeLastRow.get 1)) }

end InitAndTeardownTuple

/-! ## The output of one proof -/

/-- `ProofOutput`, with its const parameters: the numbers of delegation challenges, of boundary
value sets and of machine-state challenges. -/
structure ProofOutput
    (numDelegationChallenges numAuxBoundaryValues numMachineStateChallenges : Nat) where
  setupCaps : MerkleTreeCaps
  memoryCaps : MerkleTreeCaps
  memoryChallenges : ExternalMemoryArgumentChallenges
  delegationChallenges : Vector ExternalDelegationArgumentChallenges numDelegationChallenges
  machineStatePermutationChallenges :
    Vector ExternalMachineStateArgumentChallenges numMachineStateChallenges
  lazyInitBoundaryValues : Vector AuxArgumentsBoundaryValues numAuxBoundaryValues
  grandProductAccumulator : Mersenne31Quartic
  delegationArgumentAccumulator : Vector Mersenne31Quartic numDelegationChallenges
  circuitSequence : U32
  delegationType : U32
deriving DecidableEq

/-- `VerifierFunctionPointer`: the verifier of one proof gets a buffer to write to. -/
abbrev VerifierFunctionPointer
    (numDelegationChallenges numAuxBoundaryValues numMachineStateChallenges : Nat) : Type :=
  ProofOutput numDelegationChallenges numAuxBoundaryValues numMachineStateChallenges →
    Verifier
      (ProofOutput numDelegationChallenges numAuxBoundaryValues numMachineStateChallenges)

end Airbender
