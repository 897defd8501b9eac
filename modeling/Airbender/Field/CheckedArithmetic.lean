import Airbender.Field.Element
import Airbender.Lib.CheckedWords

/-!
# Base-field arithmetic with overflow checks

The operations of `Mersenne31Field` as a build with overflow checks runs them: `+`, `-` and `*` on
words stop where they do not fit, and only the `wrapping` operations wrap.
-/

namespace Airbender.Mersenne31

open Circuit (F)

namespace Checked

/-- `MSBITMASK`. -/
def msbitmask : U32 := (1 : U32) <<< 31

def addMod (a b : U32) : Option U32 :=
  let sum := a + b
  let msb := sum &&& ((1 : U32) <<< 31)
  CheckedWord.add (sum ^^^ msb) (if msb ≠ 0 then 1 else 0)

def subMod (a b : U32) : Option U32 :=
  let sum := a - b
  let msb := sum &&& ((1 : U32) <<< 31)
  CheckedWord.sub (sum ^^^ msb) (if msb ≠ 0 then 1 else 0)

/-- The sum of the low 31 bits of a product and the bits above them. -/
def foldProduct (product : U64) : Option U32 :=
  let productLow := product.setWidth 32 &&& (((1 : U32) <<< 31) - 1)
  let productHigh := (product >>> 31).setWidth 32
  addMod productLow productHigh

def mulMod (a b : U32) : Option U32 := do
  let product ← CheckedWord.mul (a.setWidth 64) (b.setWidth 64 : U64)
  foldProduct product

/-- `a * b + c`. -/
def fmaMod (a b c : U32) : Option U32 := do
  let product ← CheckedWord.mul (a.setWidth 64) (b.setWidth 64 : U64)
  let product ← CheckedWord.add product (c.setWidth 64)
  foldProduct product

/-- `add_assign_impl`. -/
def addAssign (a other : U32) : Option U32 := addMod a other

/-- `sub_assign_impl`. -/
def subAssign (a other : U32) : Option U32 := subMod a other

/-- `mul_assign_impl`. -/
def mulAssign (a other : U32) : Option U32 := mulMod a other

/-- `square_impl`. -/
def square (a : U32) : Option U32 := mulAssign a a

/-- `negate_impl`. -/
def negate (a : U32) : Option U32 := CheckedWord.sub order a

/-- `double_impl`; the shift drops the top bit without a check. -/
def double (a : U32) : Option U32 :=
  let sum := a <<< 1
  let msb := sum &&& msbitmask
  CheckedWord.add (sum ^^^ msb) (if msb ≠ 0 then 1 else 0)

/-- `fused_mul_add_assign`. -/
def fusedMulAddAssign (x a b : U32) : Option U32 := fmaMod x a b

/-- `add_assign_product`. -/
def addAssignProduct (x a b : U32) : Option U32 := fmaMod a b x

/-- `new`, with its debug assertion. -/
def new (value : U32) : Option U32 := do
  guard (value >>> 31 = 0)
  return value

/-- `mul_2exp_u64`. -/
def mul2expU64 (a : U32) (exp : U64) : Option U32 := do
  let exp : BitVec 8 := (exp % 31).setWidth 8
  let shifted ← CheckedWord.shl a exp.toNat
  let left := shifted &&& (((1 : U32) <<< 31) - 1)
  let rest ← CheckedWord.sub 31 exp
  let right ← CheckedWord.shr a rest.toNat
  new (left ||| right)

/-- `div_2exp_u64`. -/
def div2expU64 (a : U32) (exp : U64) : Option U32 := do
  let exp : BitVec 8 := (exp % 31).setWidth 8
  let left ← CheckedWord.shr a exp.toNat
  let rest ← CheckedWord.sub 31 exp
  let shifted ← CheckedWord.shl a rest.toNat
  let right := shifted &&& (((1 : U32) <<< 31) - 1)
  new (left ||| right)

/-- `is_zero_impl`. -/
def isZero (a : U32) : Bool := a == 0 || a == order

/-- `exp_power_of_2_impl`. -/
def expPowerOf2 (a : U32) : ℕ → Option U32
  | 0 => some a
  | powerLog + 1 => do
      let a ← square a
      expPowerOf2 a powerLog

/-- `inverse_impl`. -/
def inverse (a : U32) : Option (Option U32) :=
  if isZero a then
    some none
  else do
    let p101 ← expPowerOf2 a 2
    let p101 ← mulAssign p101 a
    let p1111 ← square p101
    let p1111 ← mulAssign p1111 p101
    let p11111111 ← expPowerOf2 p1111 4
    let p11111111 ← mulAssign p11111111 p1111
    let p111111110000 ← expPowerOf2 p11111111 4
    let p111111111111 ← mulAssign p111111110000 p1111
    let ones16 ← expPowerOf2 p111111110000 4
    let ones16 ← mulAssign ones16 p11111111
    let ones28 ← expPowerOf2 ones16 12
    let ones28 ← mulAssign ones28 p111111111111
    let p1111111111111111111111111111101 ← expPowerOf2 ones28 3
    let p1111111111111111111111111111101 ← mulAssign p1111111111111111111111111111101 p101
    return some p1111111111111111111111111111101

/-! ## The checks pass -/

/-- The checks of a computation pass, and it ends with a stored element of the residue. -/
def Computes (computation : Option U32) (residue : F) : Prop :=
  ∃ result : Element, computation = some result.raw ∧ result.value = residue

theorem toNat_clearTop (sum : U32) :
    (sum ^^^ (sum &&& ((1 : U32) <<< 31))).toNat = sum.toNat % 2 ^ 31 := by
  have bound := sum.isLt
  rcases topBit_cases sum with ⟨clear, small⟩ | ⟨set, large, folded⟩
  · have unchanged : sum ^^^ 0 = sum := BitVec.xor_zero
    rw [clear, unchanged, Nat.mod_eq_of_lt small]
  · rw [set, folded]
    omega

theorem topBit_ne_zero_iff (sum : U32) :
    sum &&& ((1 : U32) <<< 31) ≠ 0 ↔ 2 ^ 31 ≤ sum.toNat := by
  rcases topBit_cases sum with ⟨clear, small⟩ | ⟨set, large, _⟩
  · exact iff_of_false (not_not.mpr clear) (Nat.not_le.mpr small)
  · rw [set]
    exact iff_of_true (by decide) large

theorem toNat_carry (sum : U32) :
    (if sum &&& ((1 : U32) <<< 31) ≠ 0 then 1 else 0 : U32).toNat =
      if 2 ^ 31 ≤ sum.toNat then 1 else 0 := by
  by_cases large : 2 ^ 31 ≤ sum.toNat
  · rw [if_pos ((topBit_ne_zero_iff sum).mpr large), if_pos large]
    rfl
  · rw [if_neg (large ∘ (topBit_ne_zero_iff sum).mp), if_neg large]
    rfl

/-- A carry always fits behind the cleared bit. -/
theorem addMod_eq (a b : U32) : addMod a b = some (Mersenne31.addMod a b) := by
  have cleared := toNat_clearTop (a + b)
  have carry := toNat_carry (a + b)
  apply CheckedWord.add_eq_some
  rw [cleared, carry]
  split <;> omega

/-- A borrow always leaves something to take it from. -/
theorem subMod_eq (a b : Element) : subMod a.raw b.raw = some (a.subAssign b).raw := by
  have cleared := toNat_clearTop (a.raw - b.raw)
  have carry := toNat_carry (a.raw - b.raw)
  have difference : (a.raw - b.raw).toNat =
      (2 ^ 32 - b.raw.toNat + a.raw.toNat) % 2 ^ 32 := BitVec.toNat_sub a.raw b.raw
  have aBound := a.bound
  have bBound := b.bound
  apply CheckedWord.sub_eq_some
  rw [cleared, carry]
  split <;> omega

theorem addMod_computes (a b : Element) : Computes (addMod a.raw b.raw) (a.value + b.value) :=
  ⟨a.addAssign b, addMod_eq a.raw b.raw, Element.value_addAssign a b⟩

theorem subMod_computes (a b : Element) : Computes (subMod a.raw b.raw) (a.value - b.value) :=
  ⟨a.subAssign b, subMod_eq a b, Element.value_subAssign a b⟩

theorem two_pow_order : (2 : F) ^ 31 = 1 := by
  have residue : ((2 ^ 31 : ℕ) : F) = ((1 : ℕ) : F) :=
    (ZMod.natCast_eq_natCast_iff' (2 ^ 31) 1 Circuit.modulus).mpr (by decide)
  rwa [Nat.cast_pow, Nat.cast_one] at residue

theorem foldProduct_computes {product : U64} (bound : product.toNat < 2 ^ 62) :
    Computes (foldProduct product) (product.toNat : F) := by
  have low := toNat_productLow product
  have high := toNat_productHigh (show product.toNat < 2 ^ 63 by omega)
  have split := Nat.mod_add_div product.toNat (2 ^ 31)
  have folded := addMod_computes ⟨_, show _ < 2 ^ 31 by rw [low]; omega⟩
    ⟨_, show _ < 2 ^ 31 by rw [high]; omega⟩
  have parts : (product.toNat : F) = ((product.toNat % 2 ^ 31 : ℕ) : F) +
      ((product.toNat / 2 ^ 31 : ℕ) : F) := by
    calc (product.toNat : F)
        = ((product.toNat % 2 ^ 31 + 2 ^ 31 * (product.toNat / 2 ^ 31) : ℕ) : F) := by rw [split]
      _ = _ := by
        rw [Nat.cast_add, Nat.cast_mul, Nat.cast_pow, Nat.cast_two, two_pow_order, one_mul]
  rw [parts, ← low, ← high]
  exact folded

/-- The product of two stored elements leaves room for a third one. -/
theorem product_le (a b : Element) :
    (a.raw.setWidth 64 : U64).toNat * (b.raw.setWidth 64 : U64).toNat = a.raw.toNat * b.raw.toNat ∧
      a.raw.toNat * b.raw.toNat ≤ (2 ^ 31 - 1) * (2 ^ 31 - 1) := by
  have aBound := a.bound
  have bBound := b.bound
  constructor
  · rw [BitVec.toNat_setWidth, BitVec.toNat_setWidth, Nat.mod_eq_of_lt (by omega),
      Nat.mod_eq_of_lt (by omega)]
  · exact Nat.mul_le_mul (by omega) (by omega)

theorem mulAssign_eq (a b : Element) : mulAssign a.raw b.raw = some (a.mulAssign b).raw := by
  have product := product_le a b
  rw [mulAssign, mulMod, CheckedWord.mul_eq_some (by omega)]
  exact addMod_eq _ _

theorem mulAssign_computes (a b : Element) :
    Computes (mulAssign a.raw b.raw) (a.value * b.value) :=
  ⟨a.mulAssign b, mulAssign_eq a b, Element.value_mulAssign a b⟩

theorem fmaMod_computes (a b c : Element) :
    Computes (fmaMod a.raw b.raw c.raw) (a.value * b.value + c.value) := by
  rcases product_le a b with ⟨widened, bound⟩
  rcases CheckedWord.mul_yields (a := a.raw.setWidth 64) (b := (b.raw.setWidth 64 : U64))
    (by omega) with ⟨product, multiplied, number⟩
  have cBound := c.bound
  have addend : (c.raw.setWidth 64 : U64).toNat = c.raw.toNat := by
    rw [BitVec.toNat_setWidth]
    omega
  rcases CheckedWord.add_yields (a := product) (b := c.raw.setWidth 64) (by omega) with
    ⟨sum, added, total⟩
  rw [addend, number, widened] at total
  rw [fmaMod, multiplied]
  change Computes ((CheckedWord.add product (c.raw.setWidth 64)).bind foldProduct) _
  rw [added, Element.value, Element.value, Element.value, ← Nat.cast_mul, ← Nat.cast_add, ← total]
  apply foldProduct_computes
  omega

theorem negate_computes (a : Element) : Computes (negate a.raw) (-a.value) := by
  have orderValue : order.toNat = 2 ^ 31 - 1 := rfl
  have bound := a.bound
  exact ⟨a.negate, CheckedWord.sub_eq_some (by omega), Element.value_negate a⟩

theorem double_eq (a : Element) : double a.raw = some a.double.raw := by
  have sum : double a.raw = addMod a.raw a.raw := by
    rw [double, addMod, shiftLeft_one, msbitmask]
  rw [sum, addMod_eq, Element.double_eq, Element.addAssign]

theorem double_computes (a : Element) : Computes (double a.raw) (2 * a.value) :=
  ⟨a.double, double_eq a, Element.value_double a⟩

/-! ## Powers of two -/

/-- The two parts of a rotated word of 31 bits do not overlap. -/
theorem rotated_eq {x k : ℕ} (small : x < 2 ^ 31) (amount : k ≤ 31) :
    x * 2 ^ k % 2 ^ 31 ||| x / 2 ^ (31 - k) =
      2 ^ k * (x % 2 ^ (31 - k)) + x / 2 ^ (31 - k) := by
  have power : 2 ^ 31 = 2 ^ k * 2 ^ (31 - k) := by
    rw [← pow_add, Nat.add_sub_cancel' amount]
  have high : x * 2 ^ k % 2 ^ 31 = 2 ^ k * (x % 2 ^ (31 - k)) := by
    rw [power, Nat.mul_comm x, Nat.mul_mod_mul_left]
  have low : x / 2 ^ (31 - k) < 2 ^ k := by
    apply Nat.div_lt_of_lt_mul
    rwa [Nat.mul_comm, ← power]
  rw [high, Nat.two_pow_add_eq_or_of_lt low]

/-- The assertion of `new` holds of words of 31 bits. -/
theorem new_eq {value : U32} (bound : value.toNat < 2 ^ 31) : new value = some value := by
  have top : value >>> 31 = 0 := by
    apply BitVec.eq_of_toNat_eq
    rw [BitVec.toNat_ushiftRight, Nat.shiftRight_eq_div_pow]
    exact Nat.div_eq_of_lt bound
  rw [new, guard, if_pos top]
  rfl

theorem rotated_computes (a : Element) {shifted rest : U32} {k : ℕ} (amount : k ≤ 31)
    (high : shifted.toNat = a.raw.toNat * 2 ^ k % 2 ^ 32)
    (low : rest.toNat = a.raw.toNat / 2 ^ (31 - k)) :
    Computes (new ((shifted &&& (((1 : U32) <<< 31) - 1)) ||| rest)) (a.value * 2 ^ k) := by
  have masked : (shifted &&& (((1 : U32) <<< 31) - 1)).toNat = a.raw.toNat * 2 ^ k % 2 ^ 31 := by
    rw [BitVec.toNat_and, high]
    change a.raw.toNat * 2 ^ k % 2 ^ 32 &&& (2 ^ 31 - 1) = _
    rw [Nat.and_two_pow_sub_one_eq_mod, Nat.mod_mod_of_dvd _ (pow_dvd_pow 2 (by decide))]
  have rotated : ((shifted &&& (((1 : U32) <<< 31) - 1)) ||| rest).toNat =
      2 ^ k * (a.raw.toNat % 2 ^ (31 - k)) + a.raw.toNat / 2 ^ (31 - k) := by
    rw [BitVec.toNat_or, masked, low, rotated_eq a.bound amount]
  have bounded : ((shifted &&& (((1 : U32) <<< 31) - 1)) ||| rest).toNat < 2 ^ 31 := by
    rw [BitVec.toNat_or, masked, low]
    apply Nat.or_lt_two_pow
    · exact Nat.mod_lt _ (Nat.two_pow_pos 31)
    · exact Nat.lt_of_le_of_lt (Nat.div_le_self _ _) a.bound
  refine ⟨⟨_, bounded⟩, new_eq bounded, ?_⟩
  have power : (2 : F) ^ k * 2 ^ (31 - k) = 1 := by
    rw [← pow_add, Nat.add_sub_cancel' amount, two_pow_order]
  have split := Nat.mod_add_div a.raw.toNat (2 ^ (31 - k))
  rw [Element.value, rotated]
  calc ((2 ^ k * (a.raw.toNat % 2 ^ (31 - k)) + a.raw.toNat / 2 ^ (31 - k) : ℕ) : F)
      = 2 ^ k * ((a.raw.toNat % 2 ^ (31 - k) : ℕ) : F) +
          2 ^ k * 2 ^ (31 - k) * ((a.raw.toNat / 2 ^ (31 - k) : ℕ) : F) := by
        rw [power, one_mul, Nat.cast_add, Nat.cast_mul, Nat.cast_pow, Nat.cast_two]
    _ = ((a.raw.toNat % 2 ^ (31 - k) + 2 ^ (31 - k) * (a.raw.toNat / 2 ^ (31 - k)) : ℕ) : F) *
          2 ^ k := by
        rw [Nat.cast_add, Nat.cast_mul, Nat.cast_pow, Nat.cast_two]
        ring
    _ = a.value * 2 ^ k := by rw [split, Element.value]

/-- The amount of a rotation. -/
theorem toNat_rotation (exp : U64) :
    ((exp % 31).setWidth 8 : BitVec 8).toNat = exp.toNat % 31 := by
  rw [BitVec.toNat_setWidth, BitVec.toNat_umod]
  change exp.toNat % 31 % 2 ^ 8 = _
  omega

theorem rotationRest_yields (exp : U64) :
    CheckedWord.Yields (CheckedWord.sub 31 ((exp % 31).setWidth 8 : BitVec 8))
      (31 - exp.toNat % 31) := by
  have amount := toNat_rotation exp
  have full : (31 : BitVec 8).toNat = 31 := rfl
  rw [← amount, ← full]
  apply CheckedWord.sub_yields
  omega

theorem mul2expU64_computes (a : Element) (exp : U64) :
    Computes (mul2expU64 a.raw exp) (a.value * 2 ^ exp.toNat) := by
  have amount := toNat_rotation exp
  rcases rotationRest_yields exp with ⟨rest, subtracted, remaining⟩
  rcases CheckedWord.shl_yields (a := a.raw) (show exp.toNat % 31 < 32 by omega) with
    ⟨shifted, left, high⟩
  rcases CheckedWord.shr_yields (a := a.raw) (show 31 - exp.toNat % 31 < 32 by omega) with
    ⟨moved, right, low⟩
  have order : (2 : F) ^ exp.toNat = 2 ^ (exp.toNat % 31) := pow_eq_pow_mod _ two_pow_order
  simp only [mul2expU64, amount, left, subtracted, remaining, right, Option.bind_eq_bind,
    Option.bind_some, order]
  exact rotated_computes a (by omega) high low

theorem div2expU64_computes (a : Element) (exp : U64) :
    Computes (div2expU64 a.raw exp) (a.value / 2 ^ exp.toNat) := by
  have amount := toNat_rotation exp
  have within : 31 - (31 - exp.toNat % 31) = exp.toNat % 31 := by omega
  rcases rotationRest_yields exp with ⟨rest, subtracted, remaining⟩
  rcases CheckedWord.shr_yields (a := a.raw) (show exp.toNat % 31 < 32 by omega) with
    ⟨moved, left, low⟩
  rcases CheckedWord.shl_yields (a := a.raw) (show 31 - exp.toNat % 31 < 32 by omega) with
    ⟨shifted, right, high⟩
  -- a rotation to the right is one to the left
  have quotient : a.value / 2 ^ exp.toNat = a.value * 2 ^ (31 - exp.toNat % 31) := by
    have nonzero : (2 : F) ^ exp.toNat ≠ 0 := pow_ne_zero _ (by decide)
    have order : (2 : F) ^ exp.toNat = 2 ^ (exp.toNat % 31) := pow_eq_pow_mod _ two_pow_order
    rw [div_eq_iff nonzero, order, mul_assoc, ← pow_add, Nat.sub_add_cancel (by omega),
      two_pow_order, mul_one]
  simp only [div2expU64, amount, left, subtracted, remaining, right, Option.bind_eq_bind,
    Option.bind_some, quotient]
  rw [BitVec.or_comm]
  rw [← within] at low
  exact rotated_computes a (by omega) high low

/-! ## Inverses -/

theorem expPowerOf2_eq (a : Element) (powerLog : ℕ) :
    expPowerOf2 a.raw powerLog = some (a.expPowerOf2 powerLog).raw := by
  induction powerLog generalizing a with
  | zero => rfl
  | succ powerLog inductionHypothesis =>
      rw [expPowerOf2, square, mulAssign_eq, Element.expPowerOf2]
      exact inductionHypothesis (a.mulAssign a)

theorem mulAssign_bind (a b : Element) {α : Type} (rest : U32 → Option α) :
    (mulAssign a.raw b.raw >>= rest) = rest (a.mulAssign b).raw := by
  rw [mulAssign_eq]
  rfl

theorem expPowerOf2_bind (a : Element) (powerLog : ℕ) {α : Type} (rest : U32 → Option α) :
    (expPowerOf2 a.raw powerLog >>= rest) = rest (a.expPowerOf2 powerLog).raw := by
  rw [expPowerOf2_eq]
  rfl

theorem inverse_eq (a : Element) : inverse a.raw = some (a.inverse.map Element.raw) := by
  rw [inverse, Element.inverse]
  by_cases zero : a.isZero = true
  · have tested : isZero a.raw = true := zero
    rw [if_pos tested, if_pos zero]
    rfl
  · have tested : ¬isZero a.raw = true := zero
    rw [if_neg tested, if_neg zero, expPowerOf2_bind, mulAssign_bind, square, mulAssign_bind,
      mulAssign_bind, expPowerOf2_bind, mulAssign_bind, expPowerOf2_bind, mulAssign_bind,
      expPowerOf2_bind, mulAssign_bind, expPowerOf2_bind, mulAssign_bind, expPowerOf2_bind,
      mulAssign_bind]
    rfl

/-- The two representations of zero. -/
theorem value_eq_zero_iff (a : Element) : a.value = 0 ↔ a.raw = 0 ∨ a.raw = order := by
  rw [← Element.isZero_iff, Element.isZero, Bool.or_eq_true, beq_iff_eq, beq_iff_eq]

theorem inverse_none_iff (a : Element) :
    inverse a.raw = some none ↔ a.raw = 0 ∨ a.raw = order := by
  rw [inverse_eq, ← value_eq_zero_iff, ← Element.isZero_iff, Element.inverse]
  by_cases zero : a.isZero = true
  · rw [if_pos zero]
    exact iff_of_true rfl zero
  · rw [if_neg zero]
    refine iff_of_false ?_ zero
    intro none
    cases none

theorem inverse_cancels (a : Element) (nonzero : a.value ≠ 0) :
    ∃ inverted : Element, inverse a.raw = some (some inverted.raw) ∧
      a.value * inverted.value = 1 := by
  rcases Element.inverse_eq nonzero with ⟨inverted, computed, value⟩
  refine ⟨inverted, ?_, ?_⟩
  · rw [inverse_eq, computed]
    rfl
  · rw [value, mul_inv_cancel₀ nonzero]

theorem toReducedU32_unique (a : Element) (r : ℕ) :
    (toReducedU32 a.raw).toNat = r ↔ r < 2 ^ 31 - 1 ∧ (r : F) = a.value := by
  have residue : (r : F) = a.value ↔ a.raw.toNat % (2 ^ 31 - 1) = r % (2 ^ 31 - 1) :=
    eq_comm.trans Element.value_eq_iff_mod
  rw [toNat_toReducedU32 a.bound, residue]
  omega

/-- The operations on stored elements pass all checks and are those of the field. -/
theorem operations_exact (a b c : Element) (exp : U64) :
    Computes (addAssign a.raw b.raw) (a.value + b.value) ∧
      Computes (subAssign a.raw b.raw) (a.value - b.value) ∧
      Computes (mulAssign a.raw b.raw) (a.value * b.value) ∧
      Computes (square a.raw) (a.value ^ 2) ∧
      Computes (double a.raw) (2 * a.value) ∧
      Computes (negate a.raw) (-a.value) ∧
      Computes (fusedMulAddAssign a.raw b.raw c.raw) (a.value * b.value + c.value) ∧
      Computes (addAssignProduct a.raw b.raw c.raw) (a.value + b.value * c.value) ∧
      Computes (mul2expU64 a.raw exp) (a.value * 2 ^ exp.toNat) ∧
      Computes (div2expU64 a.raw exp) (a.value / 2 ^ exp.toNat) ∧
      (inverse a.raw = some none ↔ a.raw = 0 ∨ a.raw = order) ∧
      ((a.raw = 0 ∨ a.raw = order) ∨ ∃ inverted : Element,
        inverse a.raw = some (some inverted.raw) ∧ a.value * inverted.value = 1) ∧
      (∀ r : ℕ, (toReducedU32 a.raw).toNat = r ↔ r < 2 ^ 31 - 1 ∧ (r : F) = a.value) ∧
      (a.eq b = true ↔ a.value = b.value) := by
  refine ⟨addMod_computes a b, subMod_computes a b, mulAssign_computes a b, ?_,
    double_computes a, negate_computes a, fmaMod_computes a b c, ?_, mul2expU64_computes a exp,
    div2expU64_computes a exp, inverse_none_iff a, ?_, toReducedU32_unique a, Element.eq_iff⟩
  · rw [pow_two]
    exact mulAssign_computes a a
  · rw [add_comm]
    exact fmaMod_computes b c a
  · rw [← value_eq_zero_iff, or_iff_not_imp_left]
    exact inverse_cancels a

end Checked

end Airbender.Mersenne31
