import Airbender.Delegations.Bigint
import Airbender.Lib.LongArithmetic
import Mathlib.Data.List.GetD

/-!
# The bigint operation on numbers

The limbs of a 256-bit operand stand for a number, and every operation is arithmetic on the
numbers of its operands.
-/

namespace Airbender.Bigint

open LongArithmetic

/-! ## Values of words and limbs -/

section Values

/-- The number that some words hold, the least significant first. -/
def wordsValue (words : List U32) : Nat :=
  value (2 ^ 32) words.length fun i => (words.getD i 0).toNat

theorem foldr_limbs (limbs : List U64) :
    limbs.foldr (fun limb number => limb.toNat + 2 ^ 64 * number) 0 =
      value (2 ^ 64) limbs.length fun i => (limbs.getD i 0).toNat := by
  induction limbs with
  | nil => rfl
  | cons limb limbs hypothesis =>
      rw [List.foldr_cons, hypothesis, List.length_cons, value_succ']
      rfl

theorem limbsValue_eq {size : Nat} (limbs : Vector U64 size) :
    limbsValue limbs = value (2 ^ 64) size fun i => (limbs.toList.getD i 0).toNat := by
  rw [limbsValue, foldr_limbs, Vector.length_toList]

theorem limbsValue_lt {size : Nat} (limbs : Vector U64 size) :
    limbsValue limbs < (2 ^ 64) ^ size := by
  rw [limbsValue_eq]
  exact value_lt fun i _ => BitVec.isLt _

theorem toNat_u64OfWords (low high : U32) :
    (u64OfWords low high).toNat = low.toNat + 2 ^ 32 * high.toNat := by
  have lowBound := low.isLt
  have highBound := high.isLt
  have disjoint : low.setWidth 64 &&& (high.setWidth 64 <<< 32) = 0#64 := by
    apply BitVec.eq_of_getLsbD_eq
    intro i inRange
    by_cases small : i < 32
    · simp [small]
    · have zero : low.getLsbD i = false := BitVec.getLsbD_of_ge low i (by omega)
      simp [zero]
  rw [u64OfWords, ← BitVec.add_eq_or_of_and_eq_zero _ _ disjoint, BitVec.toNat_add,
    BitVec.toNat_setWidth, BitVec.toNat_shiftLeft, BitVec.toNat_setWidth, Nat.shiftLeft_eq]
  omega

theorem u64_words (limb : U64) :
    limb.toNat = (lowWord limb).toNat + 2 ^ 32 * (highWord limb).toNat := by
  have bound := limb.isLt
  rw [lowWord, highWord, BitVec.toNat_setWidth, BitVec.toNat_setWidth, BitVec.toNat_ushiftRight,
    Nat.shiftRight_eq_div_pow]
  omega

/-- Limbs assembled from words have the value of the words. -/
theorem limbsValue_limbsOfWords (size : Nat) (words : List U32) (length : words.length = 2 * size) :
    limbsValue (limbsOfWords size words) = wordsValue words := by
  rw [limbsValue_eq, wordsValue, length, ← value_pairs]
  apply value_congr
  intro i inRange
  have limb : (limbsOfWords size words).toList.getD i 0 =
      u64OfWords (words.getD (2 * i) 0) (words.getD (2 * i + 1) 0) := by
    rw [List.getD_eq_getElem _ _ (by simpa using inRange)]
    simp [limbsOfWords]
  rw [limb, toNat_u64OfWords]

theorem wordsValue_wordsOfLimbs (limbs : List U64) :
    wordsValue (wordsOfLimbs limbs) =
      limbs.foldr (fun limb number => limb.toNat + 2 ^ 64 * number) 0 := by
  induction limbs with
  | nil => rfl
  | cons limb limbs hypothesis =>
      have cons : wordsOfLimbs (limb :: limbs) =
          lowWord limb :: highWord limb :: wordsOfLimbs limbs := rfl
      rw [List.foldr_cons, ← hypothesis, cons, wordsValue, List.length_cons, List.length_cons,
        value_succ', value_succ', u64_words, wordsValue]
      simp only [List.getD_cons_zero, List.getD_cons_succ]
      ring

/-- Words of one length are determined by their value. -/
theorem words_eq_of_value_eq {first second : List U32} (length : first.length = second.length)
    (equal : wordsValue first = wordsValue second) : first = second := by
  apply List.ext_getElem length
  intro i firstBound secondBound
  rw [wordsValue, wordsValue, ← length] at equal
  have digit := digits_eq_of_value_eq (by decide) (fun _ _ => BitVec.isLt _)
    (fun _ _ => BitVec.isLt _) equal firstBound
  rw [List.getD_eq_getElem _ _ firstBound, List.getD_eq_getElem _ _ secondBound] at digit
  exact BitVec.eq_of_toNat_eq digit

theorem limbs_eq_of_value_eq {size : Nat} {first second : Vector U64 size}
    (equal : limbsValue first = limbsValue second) : first = second := by
  apply Vector.ext
  intro i inRange
  rw [limbsValue_eq, limbsValue_eq] at equal
  have digit := digits_eq_of_value_eq (by decide) (fun _ _ => BitVec.isLt _)
    (fun _ _ => BitVec.isLt _) equal inRange
  rw [List.getD_eq_getElem _ _ (by simpa using inRange),
    List.getD_eq_getElem _ _ (by simpa using inRange)] at digit
  simpa using BitVec.eq_of_toNat_eq digit

end Values

/-! ## The arithmetic of the crate -/

/-- The routines of the crate compute on values what their documentation says. -/
class LawfulRuint [Ruint] : Prop where
  carryingAddN : ∀ (a b : U256) (carry : Bool),
    limbsValue (Ruint.carryingAddN a b carry).1 =
        (limbsValue a + limbsValue b + carry.toNat) % 2 ^ 256 ∧
      (Ruint.carryingAddN a b carry).2 =
        decide (2 ^ 256 ≤ limbsValue a + limbsValue b + carry.toNat)
  borrowingSubN : ∀ (a b : U256) (borrow : Bool),
    limbsValue (Ruint.borrowingSubN a b borrow).1 =
        (limbsValue a + 2 ^ 257 - (limbsValue b + borrow.toNat)) % 2 ^ 256 ∧
      (Ruint.borrowingSubN a b borrow).2 =
        decide (limbsValue a < limbsValue b + borrow.toNat)
  overflowingMul : ∀ a b : U256,
    limbsValue (Ruint.overflowingMul a b).1 = limbsValue a * limbsValue b % 2 ^ 256 ∧
      (Ruint.overflowingMul a b).2 = decide (2 ^ 256 ≤ limbsValue a * limbsValue b)
  wideningMul : ∀ a b : U256,
    limbsValue (Ruint.wideningMul a b) = limbsValue a * limbsValue b

theorem limbsValue_limbsOfNat (size number : Nat) :
    limbsValue (limbsOfNat size number) = number % (2 ^ 64) ^ size := by
  rw [limbsValue_eq, ← value_digits]
  apply value_congr
  intro i inRange
  rw [List.getD_eq_getElem _ _ (by simpa using inRange)]
  simp [limbsOfNat, Nat.pow_mul]

theorem mul_lt_pow_512 (a b : U256) : limbsValue a * limbsValue b < (2 ^ 64) ^ 8 := by
  have aBound := limbsValue_lt a
  have bBound := limbsValue_lt b
  have split : (2 ^ 64) ^ 8 = (2 ^ 64) ^ 4 * (2 ^ 64) ^ 4 := by norm_num
  rw [split]
  exact Nat.mul_lt_mul'' aBound bBound

instance : @LawfulRuint fixedWidthRuint where
  carryingAddN _ _ _ := ⟨limbsValue_limbsOfNat 4 _, rfl⟩
  borrowingSubN _ _ _ := ⟨limbsValue_limbsOfNat 4 _, rfl⟩
  overflowingMul _ _ := ⟨limbsValue_limbsOfNat 4 _, rfl⟩
  wideningMul a b := by
    have value := limbsValue_limbsOfNat 8 (limbsValue a * limbsValue b)
    rw [Nat.mod_eq_of_lt (mul_lt_pow_512 a b)] at value
    exact value

/-! ## The operations -/

/-- The operations that a control mask may select. -/
inductive BigintOp where
  | add
  | sub
  | subAndNegate
  | mulLow
  | mulHigh
  | eq
  | memcopy
deriving DecidableEq, Repr

namespace BigintOp

def bit : BigintOp → Nat
  | add => addOpBitIdx
  | sub => subOpBitIdx
  | subAndNegate => subAndNegateOpBitIdx
  | mulLow => mulLowOpBitIdx
  | mulHigh => mulHighOpBitIdx
  | eq => eqOpBitIdx
  | memcopy => memcopyBitIdx

def all : List BigintOp := [add, sub, subAndNegate, mulLow, mulHigh, eq, memcopy]

/-- The control mask of an operation with or without a carry. -/
def mask (op : BigintOp) (carry : Bool) : Nat := 2 ^ op.bit + 2 ^ carryBitIdx * carry.toNat

/-- The result of an operation on numbers. -/
def result (op : BigintOp) (carry : Bool) (a b : Nat) : Nat :=
  match op with
  | add => (a + b + carry.toNat) % 2 ^ 256
  | sub => (a + 2 ^ 257 - (b + carry.toNat)) % 2 ^ 256
  | subAndNegate => (b + 2 ^ 257 - (a + carry.toNat)) % 2 ^ 256
  | mulLow => a * b % 2 ^ 256
  | mulHigh => a * b / 2 ^ 256
  | eq => a
  | memcopy => (b + carry.toNat) % 2 ^ 256

/-- The flag of an operation on numbers. -/
def flag (op : BigintOp) (carry : Bool) (a b : Nat) : Bool :=
  match op with
  | add => 2 ^ 256 ≤ a + b + carry.toNat
  | sub => a < b + carry.toNat
  | subAndNegate => b < a + carry.toNat
  | mulLow => 2 ^ 256 ≤ a * b
  | mulHigh => false
  | eq => a = b
  | memcopy => 2 ^ 256 ≤ b + carry.toNat

theorem mask_lt (op : BigintOp) (carry : Bool) : op.mask carry < 2 ^ 8 := by
  cases op <;> cases carry <;> decide

end BigintOp

section Accepted

/-- The masks the operation accepts. -/
theorem exists_op_of_guard {mask : Nat} (small : mask < 2 ^ 8)
    (one : countOnes (BitVec.ofNat 32 mask &&& ~~~((1 : U32) <<< carryBitIdx)) = 1) :
    ∃ (op : BigintOp) (carry : Bool), mask = op.mask carry := by
  have checked : ∀ mask < 2 ^ 8,
      countOnes (BitVec.ofNat 32 mask &&& ~~~((1 : U32) <<< carryBitIdx)) = 1 →
        ∃ op ∈ BigintOp.all, ∃ carry ∈ [false, true], mask = op.mask carry := by
    decide +kernel
  rcases checked mask small one with ⟨op, _, carry, _, equal⟩
  exact ⟨op, carry, equal⟩

/-- An accepted control value is the mask of one operation. -/
theorem exists_op_of_bigintImpl [Ruint] {a b : U256} {x12 : U32} {outcome : U256 × Bool}
    (accepted : bigintImpl a b x12 = some outcome) :
    ∃ (op : BigintOp) (carry : Bool), x12 = BitVec.ofNat 32 (op.mask carry) := by
  simp only [bigintImpl, Option.bind_eq_bind, Option.bind_eq_some_iff,
    Option.guard_eq_some' ()] at accepted
  rcases accepted with ⟨_, small, _, one, _⟩
  have bound : x12.toNat < 2 ^ 8 := small
  have same : BitVec.ofNat 32 x12.toNat = x12 := by simp
  rcases exists_op_of_guard bound (by rw [same]; exact one) with ⟨op, carry, equal⟩
  exact ⟨op, carry, by rw [← equal, same]⟩

end Accepted

section Results

/-- One limb of the rippling carry. -/
theorem addCarry_limb (limb : U64) (carry : Bool) :
    limb.toNat + carry.toNat = (limb + (if carry then 1 else 0)).toNat +
      2 ^ 64 * (carry && limb + (if carry then 1 else 0) == 0).toNat := by
  have bound := limb.isLt
  cases carry with
  | false => simp
  | true =>
      have one : (1 : U64).toNat = 1 := rfl
      by_cases wraps : limb + 1 = 0
      · have zero := congrArg BitVec.toNat wraps
        have zeroNat : (0 : U64).toNat = 0 := rfl
        rw [BitVec.toNat_add, one, zeroNat] at zero
        rw [if_pos rfl, wraps, zeroNat, Bool.true_and, beq_self_eq_true, Bool.toNat_true]
        omega
      · have nonzero : (limb + 1).toNat ≠ 0 := fun zero => wraps (BitVec.eq_of_toNat_eq zero)
        have same : (limb + 1 == 0) = false := by simpa using wraps
        rw [if_pos rfl, same, Bool.true_and, Bool.toNat_false, Bool.toNat_true]
        rw [BitVec.toNat_add, one] at nonzero ⊢
        omega

/-- Rippling a carry through the limbs adds it to their value. -/
theorem addCarry_value (carry : Bool) (limbs : U256) :
    limbsValue limbs + carry.toNat =
      limbsValue (addCarry carry limbs).1 + 2 ^ 256 * (addCarry carry limbs).2.toNat := by
  rcases limbs with ⟨⟨limbs⟩, size⟩
  match limbs, size with
  | [l0, l1, l2, l3], _ =>
      have step0 := addCarry_limb l0 carry
      generalize carry1 : (carry && l0 + (if carry then 1 else 0) == 0) = c1 at step0
      have step1 := addCarry_limb l1 c1
      generalize carry2 : (c1 && l1 + (if c1 then 1 else 0) == 0) = c2 at step1
      have step2 := addCarry_limb l2 c2
      generalize carry3 : (c2 && l2 + (if c2 then 1 else 0) == 0) = c3 at step2
      have step3 := addCarry_limb l3 c3
      have folded : addCarry carry (⟨⟨[l0, l1, l2, l3]⟩, rfl⟩ : U256) =
          (⟨⟨[l0 + (if carry then 1 else 0), l1 + (if c1 then 1 else 0),
            l2 + (if c2 then 1 else 0), l3 + (if c3 then 1 else 0)]⟩, rfl⟩,
            c3 && l3 + (if c3 then 1 else 0) == 0) := by
        rw [← carry3, ← carry2, ← carry1]
        rfl
      rw [folded]
      simp only [limbsValue, Vector.toList, List.foldr_cons, List.foldr_nil]
      omega

theorem limbsValue_high (limbs : U512) :
    limbsValue (Vector.ofFn fun i : Fin 4 => limbs.get (i.addNat 4)) =
      limbsValue limbs / 2 ^ 256 := by
  rcases limbs with ⟨⟨limbs⟩, size⟩
  match limbs, size with
  | [l0, l1, l2, l3, l4, l5, l6, l7], _ =>
      have b0 := l0.isLt
      have b1 := l1.isLt
      have b2 := l2.isLt
      have b3 := l3.isLt
      have high : (Vector.ofFn fun i : Fin 4 =>
          (⟨⟨[l0, l1, l2, l3, l4, l5, l6, l7]⟩, rfl⟩ : U512).get (i.addNat 4)) =
          (⟨⟨[l4, l5, l6, l7]⟩, rfl⟩ : U256) := rfl
      rw [high]
      simp only [limbsValue, Vector.toList, List.foldr_cons, List.foldr_nil]
      omega

variable [Ruint]

/-- What the operation returns, for each mask. -/
theorem bigintImpl_mask (op : BigintOp) (carry : Bool) (a b : U256) :
    bigintImpl a b (BitVec.ofNat 32 (op.mask carry)) = some (match op with
      | .add => Ruint.carryingAddN a b carry
      | .sub => Ruint.borrowingSubN a b carry
      | .subAndNegate => Ruint.borrowingSubN b a carry
      | .mulLow => Ruint.overflowingMul a b
      | .mulHigh => (Vector.ofFn fun i : Fin 4 => (Ruint.wideningMul a b).get (i.addNat 4), false)
      | .eq => (a, a == b)
      | .memcopy => if carry then addCarry true b else (b, false)) := by
  cases op <;> cases carry <;> rfl

/-- The operation computes its result and its flag on numbers. -/
theorem bigintImpl_value [LawfulRuint] (op : BigintOp) (carry : Bool) (a b : U256) :
    ∃ result flag, bigintImpl a b (BitVec.ofNat 32 (op.mask carry)) = some (result, flag) ∧
      limbsValue result = op.result carry (limbsValue a) (limbsValue b) ∧
      flag = op.flag carry (limbsValue a) (limbsValue b) := by
  refine ⟨_, _, bigintImpl_mask op carry a b, ?_⟩
  cases op with
  | add => exact LawfulRuint.carryingAddN a b carry
  | sub => exact LawfulRuint.borrowingSubN a b carry
  | subAndNegate => exact LawfulRuint.borrowingSubN b a carry
  | mulLow => exact LawfulRuint.overflowingMul a b
  | mulHigh =>
      refine ⟨?_, rfl⟩
      rw [limbsValue_high, LawfulRuint.wideningMul]
      rfl
  | eq =>
      refine ⟨rfl, ?_⟩
      have same : limbsValue a = limbsValue b ↔ a = b :=
        ⟨limbs_eq_of_value_eq, congrArg limbsValue⟩
      simp [BigintOp.flag, same, beq_eq_decide]
  | memcopy =>
      have sum := addCarry_value true b
      have bound := limbsValue_lt b
      have outBound := limbsValue_lt (addCarry true b).1
      cases carry with
      | false =>
          constructor
          · simp only [BigintOp.result, Bool.toNat_false]
            exact (Nat.mod_eq_of_lt bound).symm
          · simp only [BigintOp.flag, Bool.toNat_false]
            exact (decide_eq_false (Nat.not_le.mpr bound)).symm
      | true =>
          simp only [BigintOp.result, BigintOp.flag, if_true, sum]
          cases (addCarry true b).2 with
          | false =>
              rw [Bool.toNat_false]
              refine ⟨by omega, ?_⟩
              rw [eq_comm, decide_eq_false_iff_not]
              omega
          | true =>
              rw [Bool.toNat_true]
              refine ⟨by omega, ?_⟩
              rw [eq_comm, decide_eq_true_iff]
              omega

end Results

end Airbender.Bigint
