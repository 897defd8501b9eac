import Airbender.Circuit.MemoryAccess
import Airbender.Lib.WordFields
import Airbender.Vm.Opcode

/-!
# Tables of the byte and half-word circuit

The tables pack a limb of an address or of a word with the position and the width of the access.
-/

namespace Airbender.Circuit

open Vm WordFields

/-! ## The tables -/

/-- The bitmask for a width and an offset: less than a word, high limb, trap. -/
def offsetBitmask (funct3 offset : Nat) (isStore rdIsX0 : Bool) : Nat :=
  let lessThanWord := funct3 = 0b001 ∨ funct3 = 0b101 ∨ funct3 = 0b000 ∨ funct3 = 0b100
  let isTrap :=
    match funct3 with
    | 0b010 => decide (offset ≠ 0)
    | 0b001 | 0b101 => decide (offset % 2 ≠ 0)
    | 0b000 | 0b100 => false
    | _ => true
  let validFunct3ForLoad := lessThanWord ∨ funct3 = 0b010
  let isTrap := if validFunct3ForLoad ∧ isStore = false ∧ rdIsX0 then false else isTrap
  let useHighLimb := decide (offset > 1)
  (decide lessThanWord).toNat + 2 * useHighLimb.toNat + 4 * isTrap.toNat

/-- `create_memory_offset_mask_with_trap_table`.  The flags are read from bits 17 and 18 of the
key, which are bits of `funct3`. -/
def createMemoryOffsetMaskWithTrapTable : List (F × F × F) :=
  tableForContinuousLog2Range 21 fun (input : Nat) =>
    let memAddressLow := input % 2 ^ 16
    let funct3 := input / 2 ^ 16 % 2 ^ 3
    let isStore := decide (input / 2 ^ 17 % 2 ≠ 0)
    let rdIsX0 := decide (input / 2 ^ 18 % 2 ≠ 0)
    let offset := memAddressLow % 4
    ((offset : Nat), (offsetBitmask funct3 offset isStore rdIsX0 : Nat))

/-- The key of a limb with an offset and a width: `limb || offset mod 4 || funct3`. -/
def limbKey (limb offset funct3 : Nat) : Nat := limb + 2 ^ 16 * offset + 2 ^ 18 * funct3

/-- A table over limbs with an offset and a width. -/
def limbTable (values : Nat → Nat → Nat → F × F) : List (F × F × F) :=
  tableForContinuousLog2Range 21 fun input =>
    values (input / 2 ^ 18 % 2 ^ 3) (input / 2 ^ 16 % 2 ^ 2) (input % 2 ^ 16)

/-- The limbs of a loaded value, by width, offset and source limb. -/
def loadedLimbs (funct3 offset limbValue : Nat) : Nat × Nat :=
  let source := if offset % 2 = 0 then limbValue % 2 ^ 8 else limbValue / 2 ^ 8
  match funct3 with
  | 0b001 =>
      if offset % 2 ≠ 0 then (0, 0)
      else if limbValue / 2 ^ 15 ≠ 0 then (limbValue, 0xffff)
      else (limbValue, 0)
  | 0b101 => if offset % 2 ≠ 0 then (0, 0) else (limbValue, 0)
  | 0b000 => if source / 2 ^ 7 ≠ 0 then (source ||| 0xff00, 0xffff) else (source, 0)
  | 0b100 => (source, 0)
  | _ => (0, 0)

/-- `create_memory_load_halfword_or_byte_table`. -/
def createMemoryLoadHalfwordOrByteTable : List (F × F × F) :=
  limbTable fun funct3 offset limbValue =>
    (((loadedLimbs funct3 offset limbValue).1 : F), ((loadedLimbs funct3 offset limbValue).2 : F))

/-- The bytes of a limb that a store keeps. -/
def keptLimb (funct3 offset limbValue : Nat) : Nat :=
  match funct3 with
  | 0b000 => limbValue &&& (if offset % 2 ≠ 0 then 0x00ff else 0xff00)
  | _ => 0

/-- `create_memory_store_halfword_or_byte_clear_source_limb_table`. -/
def createMemoryStoreHalfwordOrByteClearSourceLimbTable : List (F × F × F) :=
  limbTable fun funct3 offset limbValue => ((keptLimb funct3 offset limbValue : F), 0)

/-- The bytes that a store adds to the limb. -/
def writtenLimb (funct3 offset limbValue : Nat) : Nat :=
  match funct3 with
  | 0b001 => limbValue
  | 0b000 =>
      let valueToStore := limbValue % 2 ^ 8
      if offset % 2 ≠ 0 then 2 ^ 8 * valueToStore else valueToStore
  | _ => 0

/-- `create_memory_store_halfword_or_byte_clear_written_limb_table`. -/
def createMemoryStoreHalfwordOrByteClearWrittenLimbTable : List (F × F × F) :=
  limbTable fun funct3 offset limbValue => ((writtenLimb funct3 offset limbValue : F), 0)

/-- `create_table_for_aligned_rom_image`: the words of the ROM by their positions. -/
def createTableForAlignedRomImage (romBits : Nat) (image : List U32) : List (F × F × F) :=
  tableForContinuousLog2Range (16 + romBits - 2) fun wordIndex =>
    let opcode := Register.ofU32 (image.getD wordIndex unimpOpcode)
    (opcode.low, opcode.high)

section Tables

variable {low funct3 offset limb : Nat} {row : F × F}

/-- A row of the offset table, at the key that the circuit builds. -/
theorem mem_memoryOffsetMaskWithTrapTable (lowBound : low < 2 ^ 16) (funct3Bound : funct3 < 2 ^ 3)
    {flags : Nat} (flagsBound : flags < 2 ^ 2) :
    (((low + 2 ^ 16 * funct3 + 2 ^ 19 * flags : Nat) : F), row) ∈
        createMemoryOffsetMaskWithTrapTable ↔
      row = (((low % 4 : Nat) : F), ((offsetBitmask funct3 (low % 4)
        (decide (funct3 / 2 % 2 ≠ 0)) (decide (funct3 / 4 % 2 ≠ 0)) : Nat) : F)) := by
  have lowPart : (low + 2 ^ 16 * funct3 + 2 ^ 19 * flags) % 2 ^ 16 = low := by omega
  have funct3Part : (low + 2 ^ 16 * funct3 + 2 ^ 19 * flags) / 2 ^ 16 % 2 ^ 3 = funct3 := by omega
  have storePart : (low + 2 ^ 16 * funct3 + 2 ^ 19 * flags) / 2 ^ 17 % 2 = funct3 / 2 % 2 := by
    omega
  have rdPart : (low + 2 ^ 16 * funct3 + 2 ^ 19 * flags) / 2 ^ 18 % 2 = funct3 / 4 % 2 := by omega
  rw [createMemoryOffsetMaskWithTrapTable, mem_tableForContinuousLog2Range (by decide) (by omega)]
  simp only [lowPart, funct3Part, storePart, rdPart]

theorem mem_limbTable {values : Nat → Nat → Nat → F × F} (limbBound : limb < 2 ^ 16)
    (offsetBound : offset < 2 ^ 2) (funct3Bound : funct3 < 2 ^ 3) :
    ((limbKey limb offset funct3 : F), row) ∈ limbTable values ↔ row = values funct3 offset limb := by
  have limbPart : limbKey limb offset funct3 % 2 ^ 16 = limb := by
    rw [limbKey]
    omega
  have offsetPart : limbKey limb offset funct3 / 2 ^ 16 % 2 ^ 2 = offset := by
    rw [limbKey]
    omega
  have funct3Part : limbKey limb offset funct3 / 2 ^ 18 % 2 ^ 3 = funct3 := by
    rw [limbKey]
    omega
  have keyBound : limbKey limb offset funct3 < 2 ^ 21 := by
    rw [limbKey]
    omega
  rw [limbTable, mem_tableForContinuousLog2Range (by decide) keyBound]
  simp only [limbPart, offsetPart, funct3Part]

end Tables

/-! ## Words -/

section Words

/-- The limb of a word that an offset selects. -/
def selectedLimb (offset : Nat) (word : U32) : Nat :=
  if offset > 1 then word.toNat / 2 ^ 16 else word.toNat % 2 ^ 16

theorem selectedLimb_lt (offset : Nat) (word : U32) : selectedLimb offset word < 2 ^ 16 := by
  have bound := word.isLt
  rw [selectedLimb]
  split <;> omega

/-- The shift amount of an address. -/
theorem shiftAmount_eq (address : U32) :
    ((address % 4) * 8).toNat = 8 * (address.toNat % 4) := by
  have four : (4 : U32).toNat = 4 := rfl
  have eight : (8 : U32).toNat = 8 := rfl
  rw [BitVec.toNat_mul, BitVec.toNat_umod, four, eight]
  omega

theorem offset_cases (n : Nat) : n % 4 = 0 ∨ n % 4 = 1 ∨ n % 4 = 2 ∨ n % 4 = 3 := by omega

/-- The byte of a word at an offset, read from the limb that the offset selects. -/
theorem byte_selectedLimb (offset : Nat) (bound : offset < 4) (word : U32) :
    word.toNat / 2 ^ (8 * offset) % 2 ^ 8 =
      if offset % 2 = 0 then selectedLimb offset word % 2 ^ 8
      else selectedLimb offset word / 2 ^ 8 := by
  have wordBound := word.isLt
  rw [selectedLimb]
  rcases offset_cases offset with zero | one | two | three
  · have isZero : offset = 0 := by omega
    subst isZero
    simp only [Nat.mul_zero, Nat.pow_zero, Nat.div_one, Nat.zero_mod, if_true]
    rw [if_neg (by decide)]
    omega
  · have isOne : offset = 1 := by omega
    subst isOne
    rw [if_neg (by decide), if_neg (by decide)]
    omega
  · have isTwo : offset = 2 := by omega
    subst isTwo
    rw [if_pos (by decide), if_pos (by decide)]
  · have isThree : offset = 3 := by omega
    subst isThree
    rw [if_neg (by decide), if_pos (by decide)]
    omega

theorem or_high_byte : ∀ source < 2 ^ 8, source ||| 0xff00 = source + 0xff00 := by
  decide +kernel

/-- A loaded byte, from the limbs of the table. -/
theorem byteValue_eq (signExtend : Bool) (address word : U32) :
    let limbs := loadedLimbs (if signExtend then 0b000 else 0b100) (address.toNat % 4)
      (selectedLimb (address.toNat % 4) word)
    (byteValue signExtend address word).toNat = limbs.1 + 2 ^ 16 * limbs.2 := by
  have byte := byte_selectedLimb (address.toNat % 4) (Nat.mod_lt _ (by decide)) word
  have read : ((word >>> ((address % 4) * 8).toNat).setWidth 8).toNat =
      word.toNat / 2 ^ (8 * (address.toNat % 4)) % 2 ^ 8 := by
    rw [toNat_read, shiftAmount_eq]
  have bound := Nat.mod_lt (word.toNat / 2 ^ (8 * (address.toNat % 4))) (Nat.two_pow_pos 8)
  rw [byte] at read bound
  cases signExtend with
  | true =>
      simp only [byteValue, loadedLimbs, if_true]
      rw [toNat_signExtend _ (by decide), read]
      generalize (if address.toNat % 4 % 2 = 0 then
        selectedLimb (address.toNat % 4) word % 2 ^ 8
        else selectedLimb (address.toNat % 4) word / 2 ^ 8) = source at bound
      by_cases negative : 2 ^ (8 - 1) ≤ source
      · have sign : source / 2 ^ 7 ≠ 0 := by omega
        rw [if_pos negative, if_pos sign, or_high_byte source bound]
        omega
      · have sign : ¬ source / 2 ^ 7 ≠ 0 := by omega
        rw [if_neg negative, if_neg sign]
        rfl
  | false =>
      simp only [byteValue, loadedLimbs, Bool.false_eq_true, if_false]
      rw [BitVec.toNat_setWidth, read, Nat.mod_eq_of_lt (by omega)]
      omega

/-- A loaded half-word, from the limbs of the table. -/
theorem halfwordValue_eq (signExtend : Bool) {address : U32} (aligned : address.toNat % 2 = 0)
    (word : U32) :
    let limbs := loadedLimbs (if signExtend then 0b001 else 0b101) (address.toNat % 4)
      (selectedLimb (address.toNat % 4) word)
    (halfwordValue signExtend address word).toNat = limbs.1 + 2 ^ 16 * limbs.2 := by
  have even : ¬ address.toNat % 4 % 2 ≠ 0 := by omega
  have half : word.toNat / 2 ^ (8 * (address.toNat % 4)) % 2 ^ 16 =
      selectedLimb (address.toNat % 4) word := by
    have bound := word.isLt
    rw [selectedLimb]
    rcases offset_cases address.toNat with zero | one | two | three
    · rw [zero, if_neg (by decide)]
      omega
    · omega
    · rw [two, if_pos (by decide)]
      omega
    · omega
  have read : ((word >>> ((address % 4) * 8).toNat).setWidth 16).toNat =
      selectedLimb (address.toNat % 4) word := by
    rw [toNat_read, shiftAmount_eq, half]
  have bound := selectedLimb_lt (address.toNat % 4) word
  cases signExtend with
  | true =>
      simp only [halfwordValue, loadedLimbs, if_true]
      rw [toNat_signExtend _ (by decide), read, if_neg even]
      generalize selectedLimb (address.toNat % 4) word = limb at bound
      by_cases negative : 2 ^ (16 - 1) ≤ limb
      · have sign : limb / 2 ^ 15 ≠ 0 := by omega
        rw [if_pos negative, if_pos sign]
        omega
      · have sign : ¬ limb / 2 ^ 15 ≠ 0 := by omega
        rw [if_neg negative, if_neg sign]
        rfl
  | false =>
      simp only [halfwordValue, loadedLimbs, Bool.false_eq_true, if_false]
      rw [BitVec.toNat_setWidth, read, Nat.mod_eq_of_lt (by omega), if_neg even]
      omega

/-- The limb that a store leaves at an offset. -/
def storedLimb (funct3 offset : Nat) (existing value : U32) : Nat :=
  keptLimb funct3 offset (selectedLimb offset existing) +
    writtenLimb funct3 offset (value.toNat % 2 ^ 16)

/-- The number of a word after its limb at an offset is replaced. -/
def replaceLimb (offset limb : Nat) (existing : U32) : Nat :=
  if offset > 1 then existing.toNat % 2 ^ 16 + 2 ^ 16 * limb
  else limb + 2 ^ 16 * (existing.toNat / 2 ^ 16)

theorem address_mod_four (address : U32) {offset : Nat} (isOffset : address.toNat % 4 = offset) :
    address % 4 = BitVec.ofNat 32 offset := by
  apply BitVec.eq_of_toNat_eq
  have four : (4 : U32).toNat = 4 := rfl
  rw [BitVec.toNat_umod, four, isOffset, BitVec.toNat_ofNat]
  exact (Nat.mod_eq_of_lt (by omega)).symm

theorem byteMask_eq (address : U32) :
    byteMask address = some (~~~fieldMask 32 (8 * (address.toNat % 4)) 8) := by
  rcases offset_cases address.toNat with zero | one | two | three
  · rw [byteMask, address_mod_four address zero, zero]
    rfl
  · rw [byteMask, address_mod_four address one, one]
    rfl
  · rw [byteMask, address_mod_four address two, two]
    rfl
  · rw [byteMask, address_mod_four address three, three]
    rfl

theorem halfwordMask_eq {address : U32} (aligned : address.toNat % 2 = 0) :
    halfwordMask address = some (~~~fieldMask 32 (8 * (address.toNat % 4)) 16) := by
  rcases offset_cases address.toNat with zero | one | two | three
  · rw [halfwordMask, address_mod_four address zero, zero]
    rfl
  · omega
  · rw [halfwordMask, address_mod_four address two, two]
    rfl
  · omega

theorem and_high_byte : ∀ limb < 2 ^ 16, limb &&& 0xff00 = 2 ^ 8 * (limb / 2 ^ 8) := by
  intro limb bound
  have low : limb &&& 0xff = limb % 2 ^ 8 := Nat.and_two_pow_sub_one_eq_mod limb 8
  have high : limb / 2 ^ 8 &&& 0xff = limb / 2 ^ 8 := by
    have mask : limb / 2 ^ 8 &&& 0xff = limb / 2 ^ 8 % 2 ^ 8 :=
      Nat.and_two_pow_sub_one_eq_mod (limb / 2 ^ 8) 8
    rw [mask]
    exact Nat.mod_eq_of_lt (by omega)
  have shifted : (limb &&& 0xff00) / 2 ^ 8 = limb / 2 ^ 8 &&& 0xff := Nat.and_div_two_pow
  have cleared : (limb &&& 0xff00) % 2 ^ 8 = 0 := by
    rw [← Nat.and_two_pow_sub_one_eq_mod, Nat.and_assoc]
    exact Nat.and_zero limb
  rw [high] at shifted
  omega

/-- A stored byte replaces its limb. -/
theorem byteStored_eq (address value existing : U32) :
    ∃ word, byteStored address value existing = some word ∧
      word.toNat = replaceLimb (address.toNat % 4)
        (storedLimb 0b000 (address.toNat % 4) existing value) existing := by
  have bound := existing.isLt
  have low : (value &&& 0x000000ff).toNat = value.toNat % 2 ^ 8 :=
    @toNat_low 32 value 8 (by decide)
  have lowBound := Nat.mod_lt value.toNat (Nat.two_pow_pos 8)
  refine ⟨_, by rw [byteStored, byteMask_eq, Option.map_some], ?_⟩
  rw [mergeStore, shiftAmount_eq, toNat_replace _ _ (by omega) (by omega), low, replaceLimb,
    storedLimb]
  have limbBound := selectedLimb_lt (address.toNat % 4) existing
  simp only [keptLimb, writtenLimb]
  have lowMask : ∀ limb, limb &&& 0x00ff = limb % 2 ^ 8 := fun limb =>
    Nat.and_two_pow_sub_one_eq_mod limb 8
  rcases offset_cases address.toNat with zero | one | two | three
  · rw [zero] at limbBound ⊢
    rw [if_neg (by decide), if_neg (by decide), and_high_byte _ limbBound, selectedLimb,
      if_neg (by decide), if_neg (by decide)]
    omega
  · rw [one] at limbBound ⊢
    rw [if_neg (by decide), if_pos (by decide), lowMask, selectedLimb, if_neg (by decide),
      if_pos (by decide)]
    omega
  · rw [two] at limbBound ⊢
    rw [if_pos (by decide), if_neg (by decide), and_high_byte _ limbBound, selectedLimb,
      if_pos (by decide), if_neg (by decide)]
    omega
  · rw [three] at limbBound ⊢
    rw [if_pos (by decide), if_pos (by decide), lowMask, selectedLimb, if_pos (by decide),
      if_pos (by decide)]
    omega

/-- A stored half-word is its limb. -/
theorem halfwordStored_eq {address : U32} (aligned : address.toNat % 2 = 0)
    (value existing : U32) :
    ∃ word, halfwordStored address value existing = some word ∧
      word.toNat = replaceLimb (address.toNat % 4)
        (storedLimb 0b001 (address.toNat % 4) existing value) existing := by
  have bound := existing.isLt
  have low : (value &&& 0x0000ffff).toNat = value.toNat % 2 ^ 16 :=
    @toNat_low 32 value 16 (by decide)
  have lowBound := Nat.mod_lt value.toNat (Nat.two_pow_pos 16)
  refine ⟨_, by rw [halfwordStored, halfwordMask_eq aligned, Option.map_some], ?_⟩
  rw [mergeStore, shiftAmount_eq, toNat_replace _ _ (by omega) (by omega), low, replaceLimb,
    storedLimb]
  simp only [keptLimb, writtenLimb]
  rcases offset_cases address.toNat with zero | one | two | three
  · rw [zero, if_neg (by decide)]
    omega
  · omega
  · rw [two, if_pos (by decide)]
    omega
  · omega

theorem toNat_alignedAddress (address : U32) :
    (alignedAddress address).toNat = 4 * (address.toNat / 4) := by
  have replaced := @toNat_replace 32 address 0 0 2 (by decide) (by decide)
  have zero : (0 : U32) <<< 0 ||| (address &&& ~~~fieldMask 32 0 2) = alignedAddress address :=
    BitVec.zero_or
  rw [zero] at replaced
  rw [replaced, Nat.pow_zero, Nat.mod_one]
  change 0 + 1 * 0 + 4 * (address.toNat / 4) = 4 * (address.toNat / 4)
  omega

/-- A value is the limbs that add up to it. -/
theorem ofU32_of_limbs {value : U32} {low high : Nat} (sum : value.toNat = low + 2 ^ 16 * high)
    (lowBound : low < 2 ^ 16) : Register.ofU32 value = ⟨(low : F), (high : F)⟩ := by
  have lowPart : value.toNat % 2 ^ 16 = low := by omega
  have highPart : value.toNat / 2 ^ 16 = high := by omega
  apply Register.ext
  · rw [Register.low_ofU32, lowPart]
  · rw [Register.high_ofU32, highPart]

theorem loadedLimbs_lt (funct3 offset : Nat) {limb : Nat} (bound : limb < 2 ^ 16) :
    (loadedLimbs funct3 offset limb).1 < 2 ^ 16 := by
  have sourceBound : (if offset % 2 = 0 then limb % 2 ^ 8 else limb / 2 ^ 8) < 2 ^ 8 := by
    split <;> omega
  have sum := or_high_byte _ sourceBound
  simp only [loadedLimbs]
  generalize (if offset % 2 = 0 then limb % 2 ^ 8 else limb / 2 ^ 8) = source at sourceBound sum
  split
  · split_ifs <;> simp only <;> omega
  · split_ifs <;> simp only <;> omega
  · split_ifs <;> simp only <;> omega
  · simp only
    omega
  · exact Nat.two_pow_pos 16

theorem storedLimb_lt (funct3 offset : Nat) (existing value : U32) :
    storedLimb funct3 offset existing value < 2 ^ 16 := by
  have limbBound := selectedLimb_lt offset existing
  have valueBound := Nat.mod_lt value.toNat (Nat.two_pow_pos 16)
  have high := and_high_byte _ limbBound
  have low : selectedLimb offset existing &&& 0x00ff = selectedLimb offset existing % 2 ^ 8 :=
    Nat.and_two_pow_sub_one_eq_mod _ 8
  rw [storedLimb]
  match funct3 with
  | 0 =>
      simp only [keptLimb, writtenLimb]
      by_cases odd : offset % 2 ≠ 0
      · rw [if_pos odd, if_pos odd, low]
        omega
      · rw [if_neg odd, if_neg odd, high]
        omega
  | 1 =>
      simp only [keptLimb, writtenLimb]
      omega
  | _ + 2 =>
      simp only [keptLimb, writtenLimb]
      exact Nat.two_pow_pos 16

/-- The limbs of a word whose limb is replaced. -/
theorem ofU32_replaceLimb {word existing : U32} {offset limb : Nat}
    (replaced : word.toNat = replaceLimb offset limb existing) (bound : limb < 2 ^ 16) :
    Register.ofU32 word = if offset > 1 then ⟨(Register.ofU32 existing).low, (limb : F)⟩
      else ⟨(limb : F), (Register.ofU32 existing).high⟩ := by
  rw [replaceLimb] at replaced
  rw [Register.low_ofU32, Register.high_ofU32]
  by_cases high : offset > 1
  · rw [if_pos high] at replaced ⊢
    exact ofU32_of_limbs replaced (Nat.mod_lt _ (Nat.two_pow_pos 16))
  · rw [if_neg high] at replaced ⊢
    exact ofU32_of_limbs replaced bound

end Words

end Airbender.Circuit
