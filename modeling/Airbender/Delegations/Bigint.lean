import Airbender.Delegations.Bits

/-!
# The bigint operation

`bigint_impl` over four 64-bit limbs.  The multi-limb arithmetic comes from the
`ruint` crate and is a parameter.
-/

namespace Airbender.Bigint

/-- Four limbs, the least significant first. -/
abbrev U256 := Vector U64 4

abbrev U512 := Vector U64 8

/-- The routines of the `ruint` crate the operation calls. -/
class Ruint where
  carryingAddN : U256 → U256 → Bool → U256 × Bool
  borrowingSubN : U256 → U256 → Bool → U256 × Bool
  overflowingMul : U256 → U256 → U256 × Bool
  wideningMul : U256 → U256 → U512

/-- The value of some limbs. -/
def limbsValue {size : Nat} (limbs : Vector U64 size) : Nat :=
  limbs.toList.foldr (fun limb value => limb.toNat + 2 ^ 64 * value) 0

def limbsOfNat (size value : Nat) : Vector U64 size :=
  Vector.ofFn fun i => BitVec.ofNat 64 (value / 2 ^ (64 * i.val))

/-- Fixed-width arithmetic with carries, as the crate documents it. -/
instance fixedWidthRuint : Ruint where
  carryingAddN a b carry :=
    let sum := limbsValue a + limbsValue b + carry.toNat
    (limbsOfNat 4 sum, 2 ^ 256 ≤ sum)
  borrowingSubN a b borrow :=
    let subtrahend := limbsValue b + borrow.toNat
    (limbsOfNat 4 (limbsValue a + 2 ^ 257 - subtrahend), limbsValue a < subtrahend)
  overflowingMul a b :=
    let product := limbsValue a * limbsValue b
    (limbsOfNat 4 product, 2 ^ 256 ≤ product)
  wideningMul a b := limbsOfNat 8 (limbsValue a * limbsValue b)

/-! ## Words and limbs -/

/-- A `u64` from its low and high word. -/
def u64OfWords (low high : U32) : U64 :=
  low.setWidth 64 ||| (high.setWidth 64 <<< 32)

def lowWord (limb : U64) : U32 := limb.setWidth 32

def highWord (limb : U64) : U32 := (limb >>> 32).setWidth 32

/-- `size` limbs from twice as many words. -/
def limbsOfWords (size : Nat) (words : List U32) : Vector U64 size :=
  Vector.ofFn fun i => u64OfWords (words.getD (2 * i) 0) (words.getD (2 * i + 1) 0)

/-- The words of the limbs, low word first. -/
def wordsOfLimbs (limbs : List U64) : List U32 :=
  limbs.flatMap fun limb => [lowWord limb, highWord limb]

@[simp]
theorem lowWord_u64OfWords (low high : U32) : lowWord (u64OfWords low high) = low := by
  ext i bound
  simp [lowWord, u64OfWords]

@[simp]
theorem highWord_u64OfWords (low high : U32) : highWord (u64OfWords low high) = high := by
  ext i bound
  have inRange : 32 + i < 64 := by
    omega
  have inLimb : i < 64 := by
    omega
  simp [highWord, u64OfWords, inRange, inLimb, bound]

@[simp]
theorem length_wordsOfLimbs (limbs : List U64) :
    (wordsOfLimbs limbs).length = 2 * limbs.length := by
  induction limbs with
  | nil => rfl
  | cons limb rest ih =>
      rw [wordsOfLimbs, List.flatMap_cons, List.length_append, ← wordsOfLimbs, ih]
      simp
      omega

/-! ## The operation -/

/-- The carry of a copy, rippled through the limbs. -/
def addCarry (carry : Bool) (limbs : U256) : U256 × Bool :=
  (List.finRange 4).foldl
    (fun (current : U256 × Bool) (i : Fin 4) =>
      let sum := current.1[i] + (if current.2 then 1 else 0)
      (current.1.set i sum, current.2 && sum == 0))
    (limbs, carry)

/-- `bigint_impl`: the new value at `x10` and the flag left in `x12`. -/
def bigintImpl [Ruint] (a b : U256) (x12 : U32) : Option (U256 × Bool) := do
  let controlMask := x12
  guard (controlMask < (1 : U32) <<< bigintNumControlBits)
  guard (countOnes (controlMask &&& ~~~((1 : U32) <<< carryBitIdx)) = 1)
  let selected (bit : Nat) : Bool := controlMask &&& (1 : U32) <<< bit ≠ 0
  let carryOrBorrow := selected carryBitIdx
  if selected addOpBitIdx then
    some (Ruint.carryingAddN a b carryOrBorrow)
  else if selected subOpBitIdx then
    some (Ruint.borrowingSubN a b carryOrBorrow)
  else if selected subAndNegateOpBitIdx then
    some (Ruint.borrowingSubN b a carryOrBorrow)
  else if selected mulLowOpBitIdx then
    some (Ruint.overflowingMul a b)
  else if selected mulHighOpBitIdx then
    let product := Ruint.wideningMul a b
    some (Vector.ofFn fun i : Fin 4 => product[i.val + 4], false)
  else if selected eqOpBitIdx then
    some (a, a == b)
  else if selected memcopyBitIdx then
    some (if carryOrBorrow then addCarry true b else (b, false))
  else
    none

end Airbender.Bigint
