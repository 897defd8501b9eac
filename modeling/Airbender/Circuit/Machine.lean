import Airbender.Circuit.Decoder

/-!
# Gadgets of the machine circuits

Registers as pairs of limbs, addition with carries, the bitmask of a family, the masked
write to the destination register and the step of the program counter.
-/

namespace Airbender.Circuit

/-! ## Decoder rows -/

/-- A row of a decoder table comes from one arm of the decoder. -/
theorem preprocessOpcode_eq_some {family : OpcodeFamilyDecoder} {supportedCsrs : List U16}
    {i : Nat} {opcode : U32} {entry : DecoderTableEntry}
    (row : preprocessOpcode family supportedCsrs i opcode = some (some entry)) :
    ∃ arm ∈ family.arms, arm.Covers opcode ∧ entry = (arm.decoded opcode).entry i ∧
      (arm.validateCsr = true → DecoderArm.asserts (arm.decoded opcode) = true ∧
        (arm.decoded opcode).imm.setWidth 16 ∈ supportedCsrs) := by
  unfold preprocessOpcode OpcodeFamilyDecoder.defineDecoderSubspace at row
  cases found : family.arms.find? (fun arm => arm.Covers opcode) with
  | none =>
      rw [found] at row
      cases row
  | some arm =>
      have covers := List.find?_some found
      refine ⟨arm, List.mem_of_find?_eq_some found, of_decide_eq_true covers, ?_⟩
      rw [found] at row
      simp only [DecoderArm.result] at row
      by_cases panics : arm.validateCsr = true ∧
          DecoderArm.asserts (arm.decoded opcode) = false
      · rw [if_pos panics] at row
        cases row
      · rw [if_neg panics] at row
        simp only at row
        by_cases unsupported : arm.validateCsr = true ∧
            (arm.decoded opcode).imm.setWidth 16 ∉ supportedCsrs
        · rw [if_pos unsupported] at row
          cases row
        · rw [if_neg unsupported] at row
          cases row
          refine ⟨rfl, ?_⟩
          intro validates
          constructor
          · by_contra failed
            exact panics ⟨validates, Bool.eq_false_iff.mpr failed⟩
          · by_contra missing
            exact unsupported ⟨validates, missing⟩

/-! ## Registers -/

@[ext]
structure Register where
  low : F
  high : F
deriving DecidableEq

namespace Register

/-- Both limbs pass the 16-bit range check. -/
def RangeChecked (register : Register) : Prop := IsU16 register.low ∧ IsU16 register.high

instance (register : Register) : Decidable register.RangeChecked :=
  inferInstanceAs (Decidable (_ ∧ _))

def value (register : Register) : U32 := wordOf register.low register.high

/-- The limbs of a word. -/
def ofU32 (value : U32) : Register where
  low := fromLimb (splitU32IntoPairU16 value).1
  high := fromLimb (splitU32IntoPairU16 value).2

/-- The field element that the constraints read off both limbs. -/
def toField (register : Register) : F := register.low + 65536 * register.high

theorem rangeChecked_ofU32 (value : U32) : (ofU32 value).RangeChecked :=
  ⟨isU16_fromLimb _, isU16_fromLimb _⟩

@[simp] theorem value_ofU32 (word : U32) : (ofU32 word).value = word := wordOf_split word

theorem val_low_ofU32 (word : U32) : (ofU32 word).low.val = word.toNat % 2 ^ 16 := by
  rw [ofU32, val_fromLimb, splitU32IntoPairU16_low]

theorem val_high_ofU32 (word : U32) : (ofU32 word).high.val = word.toNat / 2 ^ 16 := by
  rw [ofU32, val_fromLimb, splitU32IntoPairU16_high]

theorem low_ofU32 (word : U32) : (ofU32 word).low = ((word.toNat % 2 ^ 16 : Nat) : F) := by
  rw [← val_low_ofU32, ZMod.natCast_zmod_val]

theorem high_ofU32 (word : U32) : (ofU32 word).high = ((word.toNat / 2 ^ 16 : Nat) : F) := by
  rw [← val_high_ofU32, ZMod.natCast_zmod_val]

theorem RangeChecked.toNat_value {register : Register} (range : register.RangeChecked) :
    register.value.toNat = register.low.val + 2 ^ 16 * register.high.val :=
  toNat_wordOf range.1 range.2

theorem RangeChecked.toField_eq {register : Register} (range : register.RangeChecked) :
    register.toField = (register.value.toNat : F) := by
  rw [range.toNat_value, toField]
  push_cast
  rw [ZMod.natCast_zmod_val, ZMod.natCast_zmod_val]

/-- A range-checked register is the limbs of its value. -/
theorem RangeChecked.eq_ofU32 {register : Register} (range : register.RangeChecked) :
    register = ofU32 register.value := by
  have value := range.toNat_value
  have lowBound := range.1
  rw [IsU16] at lowBound
  have low : register.low.val = (ofU32 register.value).low.val := by
    rw [val_low_ofU32]
    omega
  have high : register.high.val = (ofU32 register.value).high.val := by
    rw [val_high_ofU32]
    omega
  cases register with
  | mk lowLimb highLimb =>
      exact congrArg₂ Register.mk (ZMod.val_injective _ low) (ZMod.val_injective _ high)

end Register

/-- The program counter a decoder row is about. -/
def DecoderTableEntry.pc (entry : DecoderTableEntry) : Register := ⟨entry.pcLow, entry.pcHigh⟩

def DecoderTableEntry.imm (entry : DecoderTableEntry) : Register :=
  ⟨entry.immLow, entry.immHigh⟩

theorem ExecutorFamilyDecoderData.entry_imm (data : ExecutorFamilyDecoderData) (i : Nat) :
    (data.entry i).imm = Register.ofU32 data.imm := rfl

theorem ExecutorFamilyDecoderData.entry_pc (data : ExecutorFamilyDecoderData) (i : Nat) :
    (data.entry i).pc = Register.ofU32 (BitVec.ofNat 32 (4 * i)) := by
  apply Register.ext
  · simp only [DecoderTableEntry.pc, entry, Register.ofU32, fromLimb, splitU32IntoPairU16_low,
      BitVec.toNat_ofNat]
    congr 1
    omega
  · simp only [DecoderTableEntry.pc, entry, Register.ofU32, fromLimb, splitU32IntoPairU16_high,
      BitVec.toNat_ofNat]
    congr 1
    omega

/-- The program counter of a decoder row is aligned. -/
theorem toNat_pc_mod (i : Nat) : (BitVec.ofNat 32 (4 * i)).toNat % 4 = 0 := by
  rw [BitVec.toNat_ofNat]
  omega

/-! ## Addition with carries -/

/-- `a + b = c + carry * 2^32` on limbs. -/
structure AddRelation (a b c : Register) (carryIntermediate carryOut : F) : Prop where
  low : a.low + b.low - c.low - 65536 * carryIntermediate = 0
  high : a.high + b.high - c.high + carryIntermediate - 65536 * carryOut = 0

section Addition

variable {a b c : Register} {carryIntermediate carryOut : F}

theorem AddRelation.toNat_eq (relation : AddRelation a b c carryIntermediate carryOut)
    (aRange : a.RangeChecked) (bRange : b.RangeChecked) (cRange : c.RangeChecked)
    (intermediate : IsBoolean carryIntermediate) (out : IsBoolean carryOut) :
    a.value.toNat + b.value.toNat = c.value.toNat + 2 ^ 32 * carryOut.val := by
  rw [aRange.toNat_value, bRange.toNat_value, cRange.toNat_value]
  rcases aRange with ⟨aLow, aHigh⟩
  rcases bRange with ⟨bLow, bHigh⟩
  rcases cRange with ⟨cLow, cHigh⟩
  have intermediateBound := intermediate.val_le_one
  have outBound := out.val_le_one
  rw [IsU16] at aLow aHigh bLow bHigh cLow cHigh
  have low : (a.low.val + b.low.val - c.low.val - 65536 * carryIntermediate.val : ℤ) = 0 := by
    apply eq_zero_of_small
    · simpa using relation.low
    · omega
    · omega
  have high : (a.high.val + b.high.val - c.high.val + carryIntermediate.val -
      65536 * carryOut.val : ℤ) = 0 := by
    apply eq_zero_of_small
    · simpa using relation.high
    · omega
    · omega
  omega

/-- The relation determines the sum of two words. -/
theorem AddRelation.value_eq (relation : AddRelation a b c carryIntermediate carryOut)
    (aRange : a.RangeChecked) (bRange : b.RangeChecked) (cRange : c.RangeChecked)
    (intermediate : IsBoolean carryIntermediate) (out : IsBoolean carryOut) :
    c.value = a.value + b.value := by
  have sum := relation.toNat_eq aRange bRange cRange intermediate out
  have bound := c.value.isLt
  apply BitVec.eq_of_toNat_eq
  rw [BitVec.toNat_add, sum, Nat.add_mul_mod_self_left, Nat.mod_eq_of_lt bound]

theorem exists_carry (x y : U32) :
    ∃ carry : Bool, x.toNat + y.toNat = (x + y).toNat + 2 ^ 32 * carry.toNat := by
  have xBound := x.isLt
  have yBound := y.isLt
  rw [BitVec.toNat_add]
  by_cases overflow : x.toNat + y.toNat < 2 ^ 32
  · refine ⟨false, ?_⟩
    rw [Bool.toNat_false]
    omega
  · refine ⟨true, ?_⟩
    rw [Bool.toNat_true]
    omega

/-- Words that add up satisfy the relation for some intermediate carry. -/
theorem exists_addRelation {x y z : U32} {carry : Bool}
    (sum : x.toNat + y.toNat = z.toNat + 2 ^ 32 * carry.toNat) :
    ∃ intermediate, IsBoolean intermediate ∧
      AddRelation (Register.ofU32 x) (Register.ofU32 y) (Register.ofU32 z) intermediate
        (fromBoolean carry) := by
  have xBound := x.isLt
  have yBound := y.isLt
  have zBound := z.isLt
  have carries : ∃ borrow : Bool,
      x.toNat % 2 ^ 16 + y.toNat % 2 ^ 16 = z.toNat % 2 ^ 16 + 2 ^ 16 * borrow.toNat ∧
      x.toNat / 2 ^ 16 + y.toNat / 2 ^ 16 + borrow.toNat =
        z.toNat / 2 ^ 16 + 2 ^ 16 * carry.toNat := by
    by_cases overflow : x.toNat % 2 ^ 16 + y.toNat % 2 ^ 16 < 2 ^ 16
    · refine ⟨false, ?_⟩
      rw [Bool.toNat_false]
      omega
    · refine ⟨true, ?_⟩
      rw [Bool.toNat_true]
      omega
  rcases carries with ⟨borrow, low, high⟩
  have lowField := congrArg (Nat.cast : Nat → F) low
  have highField := congrArg (Nat.cast : Nat → F) high
  push_cast at lowField highField
  refine ⟨fromBoolean borrow, isBoolean_fromBoolean borrow, ?_, ?_⟩
  · simp only [Register.ofU32, fromLimb, splitU32IntoPairU16_low, fromBoolean_eq]
    push_cast
    linear_combination lowField
  · simp only [Register.ofU32, fromLimb, splitU32IntoPairU16_high, fromBoolean_eq]
    push_cast
    linear_combination highField

end Addition

/-- One variant of a shared addition: `a + b = c` where the flag is set. -/
structure AddSubRelation where
  execFlag : F
  a : Register
  b : Register
  c : Register

/-- `enforce_add_sub_relation`: the variants share both carries. -/
structure EnforceAddSub (relations : List AddSubRelation) (carryIntermediate carryOut : F) :
    Prop where
  intermediateBoolean : IsBoolean carryIntermediate
  outBoolean : IsBoolean carryOut
  low : (relations.map fun relation => relation.execFlag * relation.a.low +
    relation.execFlag * relation.b.low - relation.execFlag * relation.c.low).sum -
    65536 * carryIntermediate = 0
  high : (relations.map fun relation => relation.execFlag * relation.a.high +
    relation.execFlag * relation.b.high - relation.execFlag * relation.c.high).sum +
    carryIntermediate - 65536 * carryOut = 0

/-! ## The bitmask of a family -/

/-- The sum of the flags weighted by powers of two. -/
def bitmaskSum : List F → F
  | [] => 0
  | flag :: flags => flag + 2 * bitmaskSum flags

/-- `Boolean::split_into_bitmask`: boolean flags that add up to the mask. -/
structure SplitIntoBitmask (flags : List F) (mask : F) : Prop where
  boolean : ∀ flag ∈ flags, IsBoolean flag
  sum : bitmaskSum flags - mask = 0

/-- The bits of a mask as flags. -/
def bitmaskFlags (mask length : Nat) : List F :=
  (List.range length).map fun i => fromBoolean (mask.testBit i)

section Bitmask

theorem bitmaskFlags_succ (mask length : Nat) :
    bitmaskFlags mask (length + 1) =
      fromBoolean (mask.testBit 0) :: bitmaskFlags (mask / 2) length := by
  rw [bitmaskFlags, List.range_succ_eq_map, List.map_cons, List.map_map]
  congr 1
  apply List.map_congr_left
  intro i _
  simp only [Function.comp_apply, Nat.testBit_succ]

/-- Boolean flags are the bits of a number below `2^length`. -/
theorem exists_bitmask {flags : List F} (boolean : ∀ flag ∈ flags, IsBoolean flag) :
    ∃ mask : Nat, mask < 2 ^ flags.length ∧ bitmaskSum flags = (mask : F) ∧
      flags = bitmaskFlags mask flags.length := by
  induction flags with
  | nil => exact ⟨0, Nat.one_pos, Nat.cast_zero.symm, rfl⟩
  | cons flag flags hypothesis =>
      rcases hypothesis fun other member => boolean other (List.mem_cons_of_mem _ member) with
        ⟨mask, bound, sum, bits⟩
      rcases (boolean flag List.mem_cons_self).exists_bool with ⟨bit, rfl⟩
      refine ⟨bit.toNat + 2 * mask, ?_, ?_, ?_⟩
      · have bitBound := Bool.toNat_le bit
        rw [List.length_cons, Nat.pow_succ]
        omega
      · rw [bitmaskSum, sum]
        cases bit <;> simp
      · have tail : (bit.toNat + 2 * mask) / 2 = mask := by
          cases bit <;> simp only [Bool.toNat_false, Bool.toNat_true] <;> omega
        have head : (bit.toNat + 2 * mask).testBit 0 = bit := by
          cases bit <;> simp [Nat.testBit_zero]
        rw [List.length_cons, bitmaskFlags_succ, tail, head, ← bits]
        rfl

/-- The mask determines its flags. -/
theorem SplitIntoBitmask.flags_eq {flags : List F} {mask : Nat}
    (split : SplitIntoBitmask flags (mask : F)) (bound : mask < 2 ^ flags.length)
    (short : flags.length ≤ 30) : flags = bitmaskFlags mask flags.length := by
  rcases exists_bitmask split.boolean with ⟨other, otherBound, sum, bits⟩
  have fits : 2 ^ flags.length ≤ 2 ^ 30 := Nat.pow_le_pow_right Nat.two_pos short
  have equal : ((other : ℤ) - mask : ℤ) = 0 := by
    apply eq_zero_of_small
    · rw [Int.cast_sub, Int.cast_natCast, Int.cast_natCast, ← sum]
      exact split.sum
    · omega
    · omega
  have same : other = mask := by omega
  rw [same] at bits
  exact bits

/-- The flag at a position is the bit of the mask there. -/
theorem SplitIntoBitmask.flag_eq {flags : List F} {mask i : Nat} {flag : F}
    (split : SplitIntoBitmask flags (mask : F)) (bound : mask < 2 ^ flags.length)
    (short : flags.length ≤ 30) (position : flags[i]? = some flag) :
    flag = fromBoolean (mask.testBit i) := by
  have inside : i < flags.length := (List.getElem?_eq_some_iff.mp position).1
  rw [split.flags_eq bound short, bitmaskFlags, List.getElem?_map,
    List.getElem?_range inside] at position
  exact (Option.some.inj position).symm

/-- The flags of a mask satisfy the split. -/
theorem splitIntoBitmask_flags {mask length : Nat} (bound : mask < 2 ^ length) :
    SplitIntoBitmask (bitmaskFlags mask length) (mask : F) := by
  constructor
  · intro flag member
    rcases List.mem_map.mp member with ⟨i, _, rfl⟩
    exact isBoolean_fromBoolean _
  · rw [sub_eq_zero]
    induction length generalizing mask with
    | zero =>
        have zero : mask = 0 := by omega
        rw [zero, Nat.cast_zero]
        rfl
    | succ length hypothesis =>
        rw [bitmaskFlags_succ, bitmaskSum, hypothesis (by omega), fromBoolean_eq,
          Nat.testBit_zero]
        have parts : mask = (decide (mask % 2 = 1)).toNat + 2 * (mask / 2) := by
          by_cases odd : mask % 2 = 1
          · rw [decide_eq_true odd, Bool.toNat_true]
            omega
          · rw [decide_eq_false odd, Bool.toNat_false]
            omega
        conv_rhs => rw [parts]
        push_cast
        rfl

end Bitmask

/-! ## The destination register -/

/-- `Register::mask` by the negated flag: the register if the flag is clear, zero otherwise. -/
structure MaskRd (register : Register) (rdIsZero : F) (masked : Register) : Prop where
  low : (1 - rdIsZero) * register.low - masked.low = 0
  high : (1 - rdIsZero) * register.high - masked.high = 0

theorem MaskRd.eq {register masked : Register} {isZero : Bool}
    (mask : MaskRd register (fromBoolean isZero) masked) :
    masked = if isZero then Register.ofU32 0 else register := by
  have low := sub_eq_zero.mp mask.low
  have high := sub_eq_zero.mp mask.high
  cases isZero with
  | true =>
      rw [fromBoolean, if_pos rfl, sub_self, zero_mul] at low high
      exact Register.ext low.symm high.symm
  | false =>
      rw [fromBoolean, if_neg Bool.false_ne_true, sub_zero, one_mul] at low high
      exact Register.ext low.symm high.symm

theorem maskRd_select (register : Register) (isZero : Bool) :
    MaskRd register (fromBoolean isZero) (if isZero then Register.ofU32 0 else register) := by
  cases isZero with
  | true => constructor <;> simp [fromBoolean, Register.ofU32, fromLimb, splitU32IntoPairU16]
  | false => constructor <;> simp [fromBoolean]

/-! ## The program counter -/

/-- A zero check: the flag is set exactly if the value is zero. -/
structure ZeroCheck (value inverse flag : F) : Prop where
  boolean : IsBoolean flag
  product : value * flag = 0
  inverted : value * inverse + flag - 1 = 0

theorem ZeroCheck.flag_eq {value inverse flag : F} (check : ZeroCheck value inverse flag) :
    flag = if value = 0 then 1 else 0 := by
  by_cases zero : value = 0
  · have inverted := check.inverted
    rw [zero, zero_mul, zero_add, sub_eq_zero] at inverted
    rw [if_pos zero, inverted]
  · rw [if_neg zero]
    exact (mul_eq_zero.mp check.product).resolve_left zero

theorem exists_zeroCheck (value : F) :
    ∃ inverse, ZeroCheck value inverse (if value = 0 then 1 else 0) := by
  by_cases zero : value = 0
  · rw [if_pos zero]
    exact ⟨0, isBoolean_iff.mpr (Or.inr rfl), by rw [zero, zero_mul], by ring⟩
  · rw [if_neg zero]
    exact ⟨value⁻¹, isBoolean_iff.mpr (Or.inl rfl), mul_zero _, by
      rw [mul_inv_cancel₀ zero]
      ring⟩

/-- The witness of `bump_pc_no_range_checks_explicit`. -/
structure BumpPcWitness where
  lowInverse : F
  lowFlag : F
  highInverse : F
  highFlag : F

/-- `bump_pc_no_range_checks_explicit`: a limb that reaches `2^16` is replaced by zero. -/
structure BumpPc (pc next : Register) (witness : BumpPcWitness) : Prop where
  lowCheck : ZeroCheck (pc.low + 4 - 65536) witness.lowInverse witness.lowFlag
  lowSelect : (1 - witness.lowFlag) * (pc.low + 4) - next.low = 0
  highCheck : ZeroCheck (pc.high + witness.lowFlag - 65536) witness.highInverse witness.highFlag
  highSelect : (1 - witness.highFlag) * (pc.high + witness.lowFlag) - next.high = 0

section BumpPc

variable {pc next : Register} {witness : BumpPcWitness}

theorem limb_add_eq_zero_iff {limb carry : F} (limbRange : IsU16 limb) (carryRange : carry.val ≤ 4) :
    limb + carry - 65536 = 0 ↔ limb.val + carry.val = 2 ^ 16 := by
  rw [IsU16] at limbRange
  constructor
  · intro zero
    have equation : (limb.val + carry.val - 65536 : ℤ) = 0 := by
      apply eq_zero_of_small
      · simpa using zero
      · omega
      · omega
    omega
  · intro equation
    have cast := congrArg (Nat.cast : Nat → F) equation
    push_cast at cast
    rw [ZMod.natCast_zmod_val, ZMod.natCast_zmod_val] at cast
    linear_combination cast

/-- Adding a small carry to a limb and replacing `2^16` by zero keeps the limb in range. -/
theorem select_val {limb carry inverse flag next : F} (limbRange : IsU16 limb)
    (carryRange : carry.val ≤ 4) (fits : limb.val + carry.val ≤ 2 ^ 16)
    (check : ZeroCheck (limb + carry - 65536) inverse flag)
    (select : (1 - flag) * (limb + carry) - next = 0) :
    IsU16 next ∧ flag.val ≤ 1 ∧ limb.val + carry.val = next.val + 2 ^ 16 * flag.val := by
  have flagValue := check.flag_eq
  have zeroIff := limb_add_eq_zero_iff limbRange carryRange
  by_cases wraps : limb.val + carry.val = 2 ^ 16
  · rw [if_pos (zeroIff.mpr wraps)] at flagValue
    rw [flagValue, sub_self, zero_mul, zero_sub, neg_eq_zero] at select
    rw [select, flagValue, IsU16, ZMod.val_zero, ZMod.val_one]
    omega
  · have nonzero : limb + carry - 65536 ≠ 0 := fun zero => wraps (zeroIff.mp zero)
    rw [if_neg nonzero] at flagValue
    rw [flagValue, sub_zero, one_mul, sub_eq_zero] at select
    have modulusValue : modulus = 2147483647 := rfl
    have nextVal : next.val = limb.val + carry.val := by
      rw [← select, ZMod.val_add_of_lt]
      omega
    rw [flagValue, IsU16, nextVal, ZMod.val_zero]
    omega

/-- On an aligned program counter the gadget adds four modulo `2^32`. -/
theorem BumpPc.value_eq (bump : BumpPc pc next witness) (range : pc.RangeChecked)
    (aligned : pc.value.toNat % 4 = 0) :
    next.RangeChecked ∧ next.value = pc.value + 4 := by
  have pcValue := range.toNat_value
  have fourVal : (4 : F).val = 4 := rfl
  rcases range with ⟨lowRange, highRange⟩
  have lowBound := lowRange
  have highBound := highRange
  rw [IsU16] at lowBound highBound
  rcases select_val lowRange (by omega) (by omega) bump.lowCheck bump.lowSelect with
    ⟨nextLow, carryBound, low⟩
  rcases select_val highRange (by omega) (by omega) bump.highCheck bump.highSelect with
    ⟨nextHigh, flagBound, high⟩
  have nextRange : next.RangeChecked := ⟨nextLow, nextHigh⟩
  have nextValue := nextRange.toNat_value
  have four : (4 : U32).toNat = 4 := rfl
  refine ⟨nextRange, ?_⟩
  apply BitVec.eq_of_toNat_eq
  rw [BitVec.toNat_add, nextValue, pcValue, four]
  rw [IsU16] at nextLow nextHigh
  omega

/-- Every step of an aligned program counter has a witness. -/
theorem exists_bumpPc (word : U32) (aligned : word.toNat % 4 = 0) :
    ∃ witness, BumpPc (Register.ofU32 word) (Register.ofU32 (word + 4)) witness := by
  rcases exists_zeroCheck ((Register.ofU32 word).low + 4 - 65536) with ⟨lowInverse, lowCheck⟩
  generalize (if (Register.ofU32 word).low + 4 - 65536 = 0 then (1 : F) else 0) = lowFlag
    at lowCheck
  rcases exists_zeroCheck ((Register.ofU32 word).high + lowFlag - 65536) with
    ⟨highInverse, highCheck⟩
  generalize (if (Register.ofU32 word).high + lowFlag - 65536 = 0 then (1 : F) else 0) = highFlag
    at highCheck
  -- the selected limbs are the limbs of the next word by the soundness of the gadget
  have bump : BumpPc (Register.ofU32 word)
      ⟨(1 - lowFlag) * ((Register.ofU32 word).low + 4),
        (1 - highFlag) * ((Register.ofU32 word).high + lowFlag)⟩
      ⟨lowInverse, lowFlag, highInverse, highFlag⟩ :=
    ⟨lowCheck, sub_self _, highCheck, sub_self _⟩
  have alignedValue : (Register.ofU32 word).value.toNat % 4 = 0 := by
    rw [Register.value_ofU32]
    exact aligned
  rcases bump.value_eq (Register.rangeChecked_ofU32 word) alignedValue with ⟨range, value⟩
  rw [range.eq_ofU32, value, Register.value_ofU32] at bump
  exact ⟨_, bump⟩

end BumpPc

end Airbender.Circuit
