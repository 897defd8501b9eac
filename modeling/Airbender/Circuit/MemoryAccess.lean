import Airbender.Circuit.Machine
import Airbender.Vm.Ram

/-!
# Accesses of the memory circuits

The tuples a row contributes to the memory argument, the addition of a base and an offset, and
the two lookups that tell ROM from RAM and read the ROM image.
-/

namespace Airbender.Circuit

/-! ## Queries -/

/-- `ShuffleRamMemQuery` of a register or of a RAM word. -/
structure ShuffleRamMemQuery where
  isRegister : F
  addressLow : F
  addressHigh : F
  localTimestampInCycle : Nat
  readValue : Register
  writeValue : Register
deriving DecidableEq

def rs2LoadLocalTimestamp : Nat := 1

def rdStoreLocalTimestamp : Nat := 2

namespace ShuffleRamMemQuery

/-- An access to a register that reads and writes these words. -/
def registerAccess (localTimestamp : Nat) (index : RegisterIndex) (read write : U32) :
    ShuffleRamMemQuery where
  isRegister := 1
  addressLow := (index.toNat : F)
  addressHigh := 0
  localTimestampInCycle := localTimestamp
  readValue := Register.ofU32 read
  writeValue := Register.ofU32 write

/-- An access to the RAM word at an address. -/
def ramAccess (localTimestamp : Nat) (address read write : U32) : ShuffleRamMemQuery where
  isRegister := 0
  addressLow := (Register.ofU32 address).low
  addressHigh := (Register.ofU32 address).high
  localTimestampInCycle := localTimestamp
  readValue := Register.ofU32 read
  writeValue := Register.ofU32 write

end ShuffleRamMemQuery

/-! ## Base and offset -/

/-- The carry out of the low limbs, as an expression. -/
def carryOf (a b c : Register) : F := (a.low + b.low - c.low) * (65536 : F)⁻¹

/-- `get_reg_add_and_overflow`. -/
structure RegAddAndOverflow (a b c : Register) (overflow : F) : Prop where
  range : c.RangeChecked
  overflowBoolean : IsBoolean overflow
  carryBoolean : carryOf a b c * (carryOf a b c - 1) = 0
  high : carryOf a b c + a.high + b.high - (c.high + 65536 * overflow) = 0

section RegAdd

variable {a b c : Register} {overflow : F}

theorem carryOf_mul (a b c : Register) : 65536 * carryOf a b c = a.low + b.low - c.low := by
  have nonzero : (65536 : F) ≠ 0 := by decide
  rw [carryOf, mul_comm, mul_assoc, inv_mul_cancel₀ nonzero, mul_one]

theorem RegAddAndOverflow.addRelation (sum : RegAddAndOverflow a b c overflow) :
    IsBoolean (carryOf a b c) ∧ AddRelation a b c (carryOf a b c) overflow := by
  have carry := sum.carryBoolean
  have high := sum.high
  refine ⟨?_, ?_, ?_⟩
  · rw [IsBoolean, ← carry]
    ring
  · rw [carryOf_mul]
    ring
  · rw [← high]
    ring

/-- The gadget adds modulo `2^32`. -/
theorem RegAddAndOverflow.value_eq (sum : RegAddAndOverflow a b c overflow)
    (aRange : a.RangeChecked) (bRange : b.RangeChecked) : c.value = a.value + b.value := by
  rcases sum.addRelation with ⟨carry, relation⟩
  exact relation.value_eq aRange bRange sum.range carry sum.overflowBoolean

theorem exists_regAddAndOverflow (x y : U32) :
    ∃ overflow, RegAddAndOverflow (Register.ofU32 x) (Register.ofU32 y)
      (Register.ofU32 (x + y)) overflow := by
  rcases exists_carry x y with ⟨carry, total⟩
  rcases exists_addRelation total with ⟨intermediate, boolean, relation⟩
  have nonzero : (65536 : F) ≠ 0 := by decide
  have isCarry : carryOf (Register.ofU32 x) (Register.ofU32 y) (Register.ofU32 (x + y)) =
      intermediate := by
    apply mul_left_cancel₀ nonzero
    rw [carryOf_mul]
    exact sub_eq_zero.mp relation.low
  have high := relation.high
  refine ⟨fromBoolean carry, Register.rangeChecked_ofU32 _, isBoolean_fromBoolean carry, ?_, ?_⟩
  · rw [isCarry, ← boolean]
    ring
  · rw [isCarry, ← high]
    ring

end RegAdd

/-! ## ROM tables -/

def unimpOpcode : U32 := 0xc0001073

/-- `create_rom_separator_table`: the high limb of an address, whether it is above the ROM, and
the part of it inside the ROM. -/
def createRomSeparatorTable (romBits : Nat) : List (F × F × F) :=
  (List.range (2 ^ 16)).map fun (a : Nat) =>
    ((a : F), fromBoolean (decide (2 ^ romBits ≤ a)), ((a % 2 ^ romBits : Nat) : F))

/-- `create_table_for_rom_image`: the aligned addresses of the ROM and their words. -/
def createTableForRomImage (romBits : Nat) (image : List U32) : List (F × F × F) :=
  (List.range (2 ^ (16 + romBits - 2))).map fun i =>
    let opcode := Register.ofU32 (image.getD i unimpOpcode)
    (((4 * i : Nat) : F), opcode.low, opcode.high)

section Tables

variable {romBits : Nat} {image : List U32} {key first second : F}

theorem mem_romSeparatorTable :
    (key, first, second) ∈ createRomSeparatorTable romBits ↔
      IsU16 key ∧ first = fromBoolean (decide (2 ^ romBits ≤ key.val)) ∧
        second = ((key.val % 2 ^ romBits : Nat) : F) := by
  rw [createRomSeparatorTable, List.mem_map]
  constructor
  · rintro ⟨a, inRange, row⟩
    rcases Prod.mk.inj row with ⟨rfl, rest⟩
    rcases Prod.mk.inj rest with ⟨rfl, rfl⟩
    have bound := List.mem_range.mp inRange
    rw [val_natCast_of_lt (bound.trans (by norm_num))]
    exact ⟨isU16_natCast bound, rfl, rfl⟩
  · rintro ⟨range, rfl, rfl⟩
    refine ⟨key.val, List.mem_range.mpr range, ?_⟩
    rw [ZMod.natCast_zmod_val]

theorem mem_romImageTable :
    (key, first, second) ∈ createTableForRomImage romBits image ↔
      ∃ i < 2 ^ (16 + romBits - 2), key = ((4 * i : Nat) : F) ∧
        Register.mk first second = Register.ofU32 (image.getD i unimpOpcode) := by
  rw [createTableForRomImage, List.mem_map]
  constructor
  · rintro ⟨i, inRange, row⟩
    rcases Prod.mk.inj row with ⟨rfl, rest⟩
    rcases Prod.mk.inj rest with ⟨rfl, rfl⟩
    exact ⟨i, List.mem_range.mp inRange, rfl, rfl⟩
  · rintro ⟨i, bound, rfl, word⟩
    refine ⟨i, List.mem_range.mpr bound, ?_⟩
    rw [← word]

end Tables

/-! ## The address lookups -/

section AddressLookups

variable {romBits : Nat} {image : List U32}

theorem romBytes_eq (romBits : Nat) : romBytes romBits = 2 ^ 16 * 2 ^ romBits := by
  rw [romBytes, Nat.shiftLeft_eq, Nat.one_mul, Nat.pow_add]

/-- The number of words of the ROM, four bytes each. -/
theorem four_mul_keys (romBits : Nat) : 4 * 2 ^ (16 + romBits - 2) = 2 ^ (16 + romBits) := by
  rw [show 4 = 2 ^ 2 from rfl, ← Nat.pow_add]
  congr 1
  omega

/-- The high limb of an address decides whether the address is above the ROM. -/
theorem romBytes_le_iff (romBits : Nat) (address : U32) :
    2 ^ romBits ≤ (Register.ofU32 address).high.val ↔ romBytes romBits ≤ address.toNat := by
  rw [Register.val_high_ofU32, romBytes_eq, Nat.le_div_iff_mul_le (by decide), Nat.mul_comm]

theorem wordIdx_eq (address : U32) : wordIdx address = address.toNat / 4 := BitVec.toNat_udiv

/-- An aligned address in a slot at or above the ROM words is above the ROM. -/
theorem romBytes_le_of_slot {address : U32} (aligned : address.toNat % 4 = 0)
    (aboveRom : romWords romBits ≤ wordIdx address) : romBytes romBits ≤ address.toNat := by
  have bytes := romBytes_eq romBits
  rw [romWords, wordIdx_eq] at aboveRom
  generalize 2 ^ romBits = bound at bytes
  omega

theorem wordIdx_lt_romWords {address : U32} (inRom : address.toNat < romBytes romBits) :
    wordIdx address < romWords romBits := by
  have bytes := romBytes_eq romBits
  rw [romWords, wordIdx_eq]
  generalize 2 ^ romBits = bound at bytes
  omega

theorem toNat_mod_four {address : U32} (aligned : address % 4 = 0) : address.toNat % 4 = 0 :=
  congrArg BitVec.toNat aligned

/-- The key of the image lookup: the part of the address inside the ROM. -/
def romKey (romBits : Nat) (address : Nat) : Nat :=
  2 ^ 16 * (address / 2 ^ 16 % 2 ^ romBits) + address % 2 ^ 16

theorem romKey_lt (romBits address : Nat) : romKey romBits address < 2 ^ (16 + romBits) := by
  have chunk := Nat.mod_lt (address / 2 ^ 16) (Nat.two_pow_pos romBits)
  have low := Nat.mod_lt address (Nat.two_pow_pos 16)
  rw [romKey, Nat.pow_add]
  nlinarith

theorem romKey_mod (romBits address : Nat) : romKey romBits address % 4 = address % 4 := by
  rw [romKey]
  omega

/-- Below the bound the key is the address. -/
theorem romKey_eq {address : Nat} (inRom : address < romBytes romBits) :
    romKey romBits address = address := by
  rw [romBytes_eq] at inRom
  have chunk : address / 2 ^ 16 < 2 ^ romBits := Nat.div_lt_of_lt_mul inRom
  rw [romKey, Nat.mod_eq_of_lt chunk]
  omega

/-- The separator lookup on an address: ROM or RAM, and the key of the image lookup. -/
theorem separator_of_mem {address : U32} {isRam chunk : F}
    (separator : ((Register.ofU32 address).high, isRam, chunk) ∈ createRomSeparatorTable romBits) :
    isRam = fromBoolean (decide (romBytes romBits ≤ address.toNat)) ∧
      65536 * chunk + (Register.ofU32 address).low = (romKey romBits address.toNat : F) := by
  rcases mem_romSeparatorTable.mp separator with ⟨_, isRam, chunk⟩
  refine ⟨?_, ?_⟩
  · rw [isRam, decide_eq_decide.mpr (romBytes_le_iff romBits address)]
  · rw [chunk, Register.val_high_ofU32, romKey, ← Register.val_low_ofU32 address, Nat.cast_add,
      ZMod.natCast_zmod_val]
    push_cast
    rfl

/-- A row of the image table at the key of an address: the address is aligned, and the values are
the word at the key. -/
theorem romImage_of_mem (small : romBits ≤ 14) {address : Nat} {first second : F}
    (row : ((romKey romBits address : F), first, second) ∈ createTableForRomImage romBits image) :
    address % 4 = 0 ∧
      Register.mk first second =
        Register.ofU32 (image.getD (romKey romBits address / 4) unimpOpcode) := by
  rcases mem_romImageTable.mp row with ⟨i, bound, key, word⟩
  have keyBound := romKey_lt romBits address
  have fits : 2 ^ (16 + romBits) ≤ 2 ^ 30 := Nat.pow_le_pow_right Nat.two_pos (by omega)
  have words := four_mul_keys romBits
  have modulusBound : 2 ^ 30 < modulus := by decide
  have same : romKey romBits address = 4 * i := by
    have values := congrArg ZMod.val key
    rw [val_natCast_of_lt (by omega), val_natCast_of_lt (by omega)] at values
    exact values
  constructor
  · rw [← romKey_mod romBits, same]
    exact Nat.mul_mod_right 4 i
  · rw [same, Nat.mul_div_cancel_left i (by decide)]
    exact word

/-- Every aligned address has a row. -/
theorem mem_romImage {address : Nat} (aligned : address % 4 = 0) :
    let word := Register.ofU32 (image.getD (romKey romBits address / 4) unimpOpcode)
    ((romKey romBits address : F), word.low, word.high) ∈
      createTableForRomImage romBits image := by
  have keyBound := romKey_lt romBits address
  have words := four_mul_keys romBits
  have keyAligned : romKey romBits address % 4 = 0 := by rw [romKey_mod, aligned]
  apply mem_romImageTable.mpr
  refine ⟨romKey romBits address / 4, by omega, ?_, rfl⟩
  congr 1
  omega

end AddressLookups

end Airbender.Circuit
