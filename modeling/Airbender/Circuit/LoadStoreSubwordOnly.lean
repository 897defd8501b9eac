import Airbender.Circuit.LoadStoreWordOnly
import Airbender.Circuit.OptimizationContext
import Airbender.Circuit.SubwordTables

/-!
# The byte and half-word memory circuit

A lookup on the low limb of the address splits off the offset and is meant to trap misaligned
accesses.  Loads from the ROM, loads from the RAM and stores share two lookups.
-/

namespace Airbender.Circuit

open Vm

/-! ## Operations -/

inductive LoadStoreSubwordOnlyOp where
  | lb
  | lh
  | lbu
  | lhu
  | sb
  | sh
deriving DecidableEq, Repr

namespace LoadStoreSubwordOnlyOp

def all : List LoadStoreSubwordOnlyOp := [lb, lh, lbu, lhu, sb, sh]

def isStore : LoadStoreSubwordOnlyOp → Bool
  | sb | sh => true
  | lb | lh | lbu | lhu => false

def isHalfword : LoadStoreSubwordOnlyOp → Bool
  | lh | lhu | sh => true
  | lb | lbu | sb => false

def funct3 : LoadStoreSubwordOnlyOp → Nat
  | lb | sb => 0b000
  | lh | sh => 0b001
  | lbu => 0b100
  | lhu => 0b101

open Ir DecoderArm in
/-- The arm of the decoder. -/
def arm : LoadStoreSubwordOnlyOp → DecoderArm
  | lb => iType opcodeLoad 0b000 none (familyBits [])
  | lh => iType opcodeLoad 0b001 none (familyBits [])
  | lbu => iType opcodeLoad 0b100 none (familyBits [])
  | lhu => iType opcodeLoad 0b101 none (familyBits [])
  | sb => sType opcodeStore 0b000 (familyBits [writeBit])
  | sh => sType opcodeStore 0b001 (familyBits [writeBit])

/-- The instruction of the executor. -/
def name : LoadStoreSubwordOnlyOp → InstructionName
  | lb => .lb
  | lh => .lh
  | lbu => .lbu
  | lhu => .lhu
  | sb => .sb
  | sh => .sh

theorem arms_eq : subwordOnlyMemoryArms = all.map arm := rfl

/-- The value that a load extracts from the word around its address. -/
def loaded (op : LoadStoreSubwordOnlyOp) (address word : U32) : U32 :=
  match op with
  | lb => byteValue true address word
  | lh => halfwordValue true address word
  | lbu => byteValue false address word
  | lhu => halfwordValue false address word
  | sb | sh => word

/-- The word that a store leaves around its address. -/
def stored (op : LoadStoreSubwordOnlyOp) (address value existing : U32) : Option U32 :=
  match op with
  | sb => byteStored address value existing
  | sh => halfwordStored address value existing
  | lb | lh | lbu | lhu => none

/-- The accesses of an operation, as for whole words. -/
def queries (op : LoadStoreSubwordOnlyOp) (romBits : Nat) (image : List U32)
    (data : ExecutorFamilyDecoderData) (rs1 second old : U32) : List ShuffleRamMemQuery :=
  let address := rs1 + data.imm
  let word := LoadStoreWordOnlyOp.loaded romBits image address second
  if op.isStore then
    [.registerAccess 0 data.rs1Index rs1 rs1,
      .registerAccess rs2LoadLocalTimestamp data.rs2Index second second,
      .ramAccess rdStoreLocalTimestamp (alignedAddress address) old
        ((op.stored address second old).getD old)]
  else
    [.registerAccess 0 data.rs1Index rs1 rs1,
      .ramAccess rs2LoadLocalTimestamp (alignedAddress address) second second,
      .registerAccess rdStoreLocalTimestamp data.rdIndex old
        (State.maskRd data.rdIndex (op.loaded address word))]

end LoadStoreSubwordOnlyOp

/-! ## The constraints -/

structure LoadStoreSubwordOnlyRow where
  decoder : DecoderTableEntry
  pcNext : Register
  rs1 : Register
  uncleanAddr : Register
  overflow : F
  offsetLowBits : F
  memOffsetWithTrapTableBitmask : F
  lessThanWordOp : F
  useHighWordInMemOps : F
  isRamRange : F
  addressHighBitsForRom : F
  loadFromRom : F
  loadFromRam : F
  rs2OrLoadAddressLow : F
  rs2OrLoadAddressHigh : F
  rs2OrLoadReadValue : Register
  rdOrStoreIsRegister : F
  rdOrStoreAddressLow : F
  rdOrStoreAddressHigh : F
  rdOrStoreReadValue : Register
  rdOrStoreWriteValue : Register
  romLimbForSubwordSizeOps : F
  ramLimbForSubwordSizeOps : F
  updatedLimbInStore : F
  firstOutputs : Register
  secondOutputs : Register
  firstLookup : SharedLookup
  secondLookup : SharedLookup
  storeLessThanWordValue : Register
  storeValue : Register
  rdCandidate : Register
  rdMasked : Register
  bumpPc : BumpPcWitness

/-- The tables of the circuit. -/
def subwordOnlyLoadStoreTables (romBits : Nat) (image : List U32) : Tables
  | .zeroEntry, row => row ∈ createZeroEntryTable
  | .memoryGetOffsetAndMaskWithTrap, row => row ∈ createMemoryOffsetMaskWithTrapTable
  | .romAddressSpaceSeparator, row => row ∈ createRomSeparatorTable romBits
  | .alignedRomRead, row => row ∈ createTableForAlignedRomImage romBits image
  | .memoryLoadHalfwordOrByte, row => row ∈ createMemoryLoadHalfwordOrByteTable
  | .memStoreClearOriginalRamValueLimb, row =>
      row ∈ createMemoryStoreHalfwordOrByteClearSourceLimbTable
  | .memStoreClearWrittenValueLimb, row =>
      row ∈ createMemoryStoreHalfwordOrByteClearWrittenLimbTable
  | _, _ => False

namespace LoadStoreSubwordOnlyRow

/-- The mask of the family is the store flag itself. -/
def isStore (row : LoadStoreSubwordOnlyRow) : F := row.decoder.circuitFamilyExtraMask

def cleanAddr (row : LoadStoreSubwordOnlyRow) : Register :=
  ⟨row.uncleanAddr.low - row.offsetLowBits, row.uncleanAddr.high⟩

/-- The queries of a row, in the order of their timestamps. -/
def queries (row : LoadStoreSubwordOnlyRow) : List ShuffleRamMemQuery :=
  [{ isRegister := 1
     addressLow := row.decoder.rs1Index
     addressHigh := 0
     localTimestampInCycle := 0
     readValue := row.rs1
     writeValue := row.rs1 },
    { isRegister := row.isStore
      addressLow := row.rs2OrLoadAddressLow
      addressHigh := row.rs2OrLoadAddressHigh
      localTimestampInCycle := rs2LoadLocalTimestamp
      readValue := row.rs2OrLoadReadValue
      writeValue := row.rs2OrLoadReadValue },
    { isRegister := row.rdOrStoreIsRegister
      addressLow := row.rdOrStoreAddressLow
      addressHigh := row.rdOrStoreAddressHigh
      localTimestampInCycle := rdStoreLocalTimestamp
      readValue := row.rdOrStoreReadValue
      writeValue := row.rdOrStoreWriteValue }]

/-- A limb with the offset and the width of the access. -/
def limbInput (row : LoadStoreSubwordOnlyRow) (limb : F) : F :=
  limb + 2 ^ 16 * row.offsetLowBits + 2 ^ 18 * row.decoder.funct3

/-- The aligned address inside the ROM, divided by four. -/
def romInput (row : LoadStoreSubwordOnlyRow) : F :=
  (row.cleanAddr.low + 2 ^ 16 * row.addressHighBitsForRom) * (4 : F)⁻¹

/-- The lookups of the first slot. -/
def romReadLookup (row : LoadStoreSubwordOnlyRow) : LookupRelation where
  execFlag := row.loadFromRom
  row := ⟨row.romInput, row.firstOutputs.low, row.firstOutputs.high⟩
  table := TableType.alignedRomRead.toNum

def ramLoadLookup (row : LoadStoreSubwordOnlyRow) : LookupRelation where
  execFlag := row.loadFromRam
  row := ⟨row.limbInput row.ramLimbForSubwordSizeOps, row.firstOutputs.low, row.firstOutputs.high⟩
  table := TableType.memoryLoadHalfwordOrByte.toNum

def clearOriginalLookup (row : LoadStoreSubwordOnlyRow) : LookupRelation where
  execFlag := row.isStore
  row := ⟨row.limbInput row.updatedLimbInStore, row.firstOutputs.low, row.firstOutputs.high⟩
  table := TableType.memStoreClearOriginalRamValueLimb.toNum

/-- The lookups of the second slot, which a load from the RAM does not use. -/
def romLoadLookup (row : LoadStoreSubwordOnlyRow) : LookupRelation where
  execFlag := row.loadFromRom
  row :=
    ⟨row.limbInput row.romLimbForSubwordSizeOps, row.secondOutputs.low, row.secondOutputs.high⟩
  table := TableType.memoryLoadHalfwordOrByte.toNum

def clearWrittenLookup (row : LoadStoreSubwordOnlyRow) : LookupRelation where
  execFlag := row.isStore
  row := ⟨row.limbInput row.rs2OrLoadReadValue.low, row.secondOutputs.low, row.secondOutputs.high⟩
  table := TableType.memStoreClearWrittenValueLimb.toNum

/-- `choose`, as a constraint on the selected value. -/
def Chooses (flag ifTrue ifFalse selected : F) : Prop :=
  flag * (ifTrue - ifFalse) + ifFalse - selected = 0

/-- The constraints and lookups of `apply_subword_only_load_store`. -/
structure Satisfied (romBits : Nat) (image : List U32) (row : LoadStoreSubwordOnlyRow) : Prop where
  mask : (1 - row.isStore) * row.isStore = 0
  address : RegAddAndOverflow row.rs1 row.decoder.imm row.uncleanAddr row.overflow
  offsetAndMask : (row.uncleanAddr.low + 2 ^ 16 * row.decoder.funct3 + 2 ^ 19 * (1 - row.isStore) +
    2 ^ 20 * row.decoder.rdIsZero, row.offsetLowBits, row.memOffsetWithTrapTableBitmask) ∈
      createMemoryOffsetMaskWithTrapTable
  bitmask : SplitIntoBitmask [row.lessThanWordOp, row.useHighWordInMemOps]
    row.memOffsetWithTrapTableBitmask
  separator : (row.cleanAddr.high, row.isRamRange, row.addressHighBitsForRom) ∈
    createRomSeparatorTable romBits
  storeInRam : row.isStore * (1 - row.isRamRange) = 0
  loadFromRom : (1 - row.isStore) * (1 - row.isRamRange) - row.loadFromRom = 0
  loadFromRam : (1 - row.isStore) * row.isRamRange - row.loadFromRam = 0
  rs2OrLoadAddressLow : row.cleanAddr.low * (1 - row.isStore) +
    row.decoder.rs2Index * row.isStore - row.rs2OrLoadAddressLow = 0
  rs2OrLoadAddressHigh : row.cleanAddr.high * (1 - row.isStore) - row.rs2OrLoadAddressHigh = 0
  rdOrStoreIsRegister : 1 - row.isStore - row.rdOrStoreIsRegister = 0
  rdOrStoreAddressLow : row.cleanAddr.low * row.isStore +
    row.decoder.rdIndex * (1 - row.isStore) - row.rdOrStoreAddressLow = 0
  rdOrStoreAddressHigh : row.cleanAddr.high * row.isStore - row.rdOrStoreAddressHigh = 0
  romLimb : Chooses row.useHighWordInMemOps row.firstOutputs.high row.firstOutputs.low
    row.romLimbForSubwordSizeOps
  ramLimb : Chooses row.useHighWordInMemOps row.rs2OrLoadReadValue.high
    row.rs2OrLoadReadValue.low row.ramLimbForSubwordSizeOps
  updatedLimb : Chooses row.useHighWordInMemOps row.rdOrStoreReadValue.high
    row.rdOrStoreReadValue.low row.updatedLimbInStore
  storeLessThanWordLow : row.rdOrStoreReadValue.low * row.useHighWordInMemOps +
    (row.firstOutputs.low + row.secondOutputs.low) * (1 - row.useHighWordInMemOps) -
    row.storeLessThanWordValue.low = 0
  storeLessThanWordHigh : row.rdOrStoreReadValue.high * (1 - row.useHighWordInMemOps) +
    (row.firstOutputs.low + row.secondOutputs.low) * row.useHighWordInMemOps -
    row.storeLessThanWordValue.high = 0
  storeValueLow : row.storeLessThanWordValue.low * row.lessThanWordOp +
    row.rs2OrLoadReadValue.low * (1 - row.lessThanWordOp) - row.storeValue.low = 0
  storeValueHigh : row.storeLessThanWordValue.high * row.lessThanWordOp +
    row.rs2OrLoadReadValue.high * (1 - row.lessThanWordOp) - row.storeValue.high = 0
  firstLookup : row.firstLookup.Enforced (subwordOnlyLoadStoreTables romBits image)
    [row.romReadLookup, row.ramLoadLookup, row.clearOriginalLookup]
  secondLookup : row.secondLookup.Enforced (subwordOnlyLoadStoreTables romBits image)
    [row.romLoadLookup, row.clearWrittenLookup]
  rdCandidateLow : row.loadFromRam * row.firstOutputs.low +
    row.loadFromRom * row.secondOutputs.low - row.rdCandidate.low = 0
  rdCandidateHigh : row.loadFromRam * row.firstOutputs.high +
    row.loadFromRom * row.secondOutputs.high - row.rdCandidate.high = 0
  rdMaskedLow : row.rdCandidate.low * (1 - row.decoder.rdIsZero) - row.rdMasked.low = 0
  rdMaskedHigh : row.rdCandidate.high * (1 - row.decoder.rdIsZero) - row.rdMasked.high = 0
  loadLow : (row.rdMasked.low - row.rdOrStoreWriteValue.low) * (1 - row.isStore) = 0
  loadHigh : (row.rdMasked.high - row.rdOrStoreWriteValue.high) * (1 - row.isStore) = 0
  storeLow : (row.storeValue.low - row.rdOrStoreWriteValue.low) * row.isStore = 0
  storeHigh : (row.storeValue.high - row.rdOrStoreWriteValue.high) * row.isStore = 0
  pcStep : BumpPc row.decoder.pc row.pcNext row.bumpPc

end LoadStoreSubwordOnlyRow

/-! ## Soundness -/

/-- What the decoder puts into the row of an operation. -/
structure LoadStoreSubwordOnlyOp.Decodes (op : LoadStoreSubwordOnlyOp)
    (data : ExecutorFamilyDecoderData) : Prop where
  funct3 : data.funct3.toNat = op.funct3
  mask : data.opcodeFamilyBits.toNat = op.isStore.toNat
  rdIsZero : data.rdIsZero = decide (data.rdIndex = 0)

/-- The accesses that the table traps: it takes a bit of the width of `LHU` for the flag of a load
into `x0`. -/
def LoadStoreSubwordOnlyOp.traps (op : LoadStoreSubwordOnlyOp) (offset : Nat) : Bool :=
  match op with
  | .lh | .sh => decide (offset % 2 ≠ 0)
  | .lb | .lbu | .lhu | .sb => false

theorem LoadStoreSubwordOnlyOp.offsetBitmask_eq (op : LoadStoreSubwordOnlyOp) :
    ∀ offset < 4, offsetBitmask op.funct3 offset (decide (op.funct3 / 2 % 2 ≠ 0))
        (decide (op.funct3 / 4 % 2 ≠ 0)) =
      1 + 2 * (decide (offset > 1)).toNat + 4 * (op.traps offset).toNat := by
  cases op <;> decide

theorem LoadStoreSubwordOnlyOp.funct3_lt (op : LoadStoreSubwordOnlyOp) : op.funct3 < 2 ^ 3 := by
  cases op <;> decide

/-- The limbs of a loaded value. -/
theorem LoadStoreSubwordOnlyOp.ofU32_loaded (op : LoadStoreSubwordOnlyOp) {address : U32}
    (isLoad : op.isStore = false) (aligned : op.isHalfword → address.toNat % 2 = 0) (word : U32) :
    let limbs := loadedLimbs op.funct3 (address.toNat % 4)
      (selectedLimb (address.toNat % 4) word)
    Register.ofU32 (op.loaded address word) = ⟨(limbs.1 : F), (limbs.2 : F)⟩ := by
  have bound := loadedLimbs_lt op.funct3 (address.toNat % 4)
    (selectedLimb_lt (address.toNat % 4) word)
  cases op with
  | lb => exact ofU32_of_limbs (byteValue_eq true address word) bound
  | lh => exact ofU32_of_limbs (halfwordValue_eq true (aligned rfl) word) bound
  | lbu => exact ofU32_of_limbs (byteValue_eq false address word) bound
  | lhu => exact ofU32_of_limbs (halfwordValue_eq false (aligned rfl) word) bound
  | sb => cases isLoad
  | sh => cases isLoad

/-- A store replaces a limb of the existing word. -/
theorem LoadStoreSubwordOnlyOp.stored_eq (op : LoadStoreSubwordOnlyOp) {address : U32}
    (isStore : op.isStore = true) (aligned : op.isHalfword → address.toNat % 2 = 0)
    (value existing : U32) :
    ∃ word, op.stored address value existing = some word ∧
      word.toNat = replaceLimb (address.toNat % 4)
        (storedLimb op.funct3 (address.toNat % 4) existing value) existing := by
  cases op with
  | sb => exact byteStored_eq address value existing
  | sh => exact halfwordStored_eq (aligned rfl) value existing
  | lb => cases isStore
  | lh => cases isStore
  | lbu => cases isStore
  | lhu => cases isStore

section Soundness

variable {romBits : Nat} {image : List U32} {row : LoadStoreSubwordOnlyRow}
  {op : LoadStoreSubwordOnlyOp} {data : ExecutorFamilyDecoderData} {i : Nat} {address : U32}

theorem LoadStoreSubwordOnlyOp.Decodes.entry_funct3 (decodes : op.Decodes data) (i : Nat) :
    (data.entry i).funct3 = (op.funct3 : F) :=
  congrArg Nat.cast decodes.funct3

theorem LoadStoreSubwordOnlyOp.Decodes.entry_mask (decodes : op.Decodes data) (i : Nat) :
    (data.entry i).circuitFamilyExtraMask = fromBoolean op.isStore := by
  rw [fromBoolean_eq, ← decodes.mask]
  rfl

/-- A flag chooses a limb of a word. -/
theorem LoadStoreSubwordOnlyRow.Chooses.selectedLimb_eq {offset : Nat} {word : U32} {selected : F}
    (chooses : LoadStoreSubwordOnlyRow.Chooses (fromBoolean (decide (offset > 1)))
      (Register.ofU32 word).high (Register.ofU32 word).low selected) :
    selected = (selectedLimb offset word : F) := by
  rw [LoadStoreSubwordOnlyRow.Chooses, Register.low_ofU32, Register.high_ofU32] at chooses
  rw [selectedLimb]
  by_cases high : offset > 1
  · rw [decide_eq_true high, fromBoolean_true] at chooses
    rw [if_pos high]
    linear_combination -chooses
  · rw [decide_eq_false high, fromBoolean_false] at chooses
    rw [if_neg high]
    linear_combination -chooses

namespace LoadStoreSubwordOnlyRow

/-! The keys of the lookups, whatever their outputs. -/

theorem isStore_eq (decoder : row.decoder = data.entry i) (decodes : op.Decodes data) :
    row.isStore = fromBoolean op.isStore := by
  rw [isStore, decoder, decodes.entry_mask]

/-- The offset lookup on an address: the offset, and the bitmask of the operation. -/
theorem offsetAndMask_iff (decoder : row.decoder = data.entry i) (decodes : op.Decodes data)
    (isAddress : row.uncleanAddr = Register.ofU32 address) {outputs : F × F} :
    (row.uncleanAddr.low + 2 ^ 16 * row.decoder.funct3 + 2 ^ 19 * (1 - row.isStore) +
        2 ^ 20 * row.decoder.rdIsZero, outputs) ∈ createMemoryOffsetMaskWithTrapTable ↔
      outputs = (((address.toNat % 4 : Nat) : F),
        ((1 + 2 * (decide (address.toNat % 4 > 1)).toNat +
          4 * (op.traps (address.toNat % 4)).toNat : Nat) : F)) := by
  have offsetBound : address.toNat % 4 < 4 := Nat.mod_lt _ (by decide)
  have rdBound := Bool.toNat_le data.rdIsZero
  have loadBound := Bool.toNat_le !op.isStore
  have key : row.uncleanAddr.low + 2 ^ 16 * row.decoder.funct3 + 2 ^ 19 * (1 - row.isStore) +
      2 ^ 20 * row.decoder.rdIsZero =
        ((address.toNat % 2 ^ 16 + 2 ^ 16 * op.funct3 +
          2 ^ 19 * ((!op.isStore).toNat + 2 * data.rdIsZero.toNat) : Nat) : F) := by
    have load : 1 - fromBoolean op.isStore = ((!op.isStore).toNat : F) := by
      cases op.isStore with
      | false => simp
      | true => simp
    have rdIsZero : (data.entry i).rdIsZero = fromBoolean data.rdIsZero := rfl
    rw [isStore_eq decoder decodes, isAddress, decoder, decodes.entry_funct3, rdIsZero, load,
      Register.low_ofU32, fromBoolean_eq]
    push_cast
    ring
  have low : address.toNat % 2 ^ 16 % 4 = address.toNat % 4 := by omega
  rw [key, mem_memoryOffsetMaskWithTrapTable (Nat.mod_lt _ (by decide)) op.funct3_lt
    (by omega), low, op.offsetBitmask_eq _ offsetBound]

/-- The input of the image lookup is the position of the word in the ROM. -/
theorem romInput_eq
    (separator : (row.uncleanAddr.high, row.isRamRange, row.addressHighBitsForRom) ∈
      createRomSeparatorTable romBits)
    (isAddress : row.uncleanAddr = Register.ofU32 address)
    (isOffset : row.offsetLowBits = ((address.toNat % 4 : Nat) : F)) :
    row.romInput = ((romKey romBits address.toNat / 4 : Nat) : F) := by
  rw [isAddress] at separator
  have key := (separator_of_mem separator).2
  have four : (4 : F) ≠ 0 := by decide
  have parts : romKey romBits address.toNat =
      4 * (romKey romBits address.toNat / 4) + address.toNat % 4 := by
    rw [← romKey_mod romBits]
    omega
  have cast := congrArg (Nat.cast : Nat → F) parts
  rw [romInput, mul_inv_eq_iff_eq_mul₀ four, cleanAddr, isOffset, isAddress]
  push_cast at cast ⊢
  linear_combination key + cast

/-- A lookup of a limb with the offset and the width of the access. -/
theorem limb_lookup_iff (decoder : row.decoder = data.entry i) (decodes : op.Decodes data)
    (isOffset : row.offsetLowBits = ((address.toNat % 4 : Nat) : F))
    {values : Nat → Nat → Nat → F × F} {limb : Nat} {outputs : F × F} (bound : limb < 2 ^ 16) :
    (row.limbInput (limb : F), outputs) ∈ limbTable values ↔
      outputs = values op.funct3 (address.toNat % 4) limb := by
  have offsetBound : address.toNat % 4 < 2 ^ 2 := Nat.mod_lt _ (by decide)
  have key : row.limbInput (limb : F) = (limbKey limb (address.toNat % 4) op.funct3 : F) := by
    rw [limbInput, limbKey, isOffset, decoder, decodes.entry_funct3]
    push_cast
    ring
  rw [key, mem_limbTable bound offsetBound op.funct3_lt]

end LoadStoreSubwordOnlyRow

namespace LoadStoreSubwordOnlyRow.Satisfied

theorem address_eq (satisfied : row.Satisfied romBits image) (decoder : row.decoder = data.entry i)
    (rs1Range : row.rs1.RangeChecked) :
    row.uncleanAddr = Register.ofU32 (row.rs1.value + data.imm) := by
  have sum := satisfied.address
  rw [decoder, data.entry_imm] at sum
  have value := sum.value_eq rs1Range (Register.rangeChecked_ofU32 _)
  rw [Register.value_ofU32] at value
  rw [sum.range.eq_ofU32, value]

/-- The offset and the bitmask of a satisfying row. -/
theorem offset_eq (satisfied : row.Satisfied romBits image) (decoder : row.decoder = data.entry i)
    (decodes : op.Decodes data) (isAddress : row.uncleanAddr = Register.ofU32 address) :
    row.offsetLowBits = ((address.toNat % 4 : Nat) : F) ∧
      row.memOffsetWithTrapTableBitmask =
        ((1 + 2 * (decide (address.toNat % 4 > 1)).toNat +
          4 * (op.traps (address.toNat % 4)).toNat : Nat) : F) :=
  Prod.mk.inj ((offsetAndMask_iff decoder decodes isAddress).mp satisfied.offsetAndMask)

/-- The bitmask splits into two bits, so that the access does not trap. -/
theorem bitmask_eq (satisfied : row.Satisfied romBits image) (decoder : row.decoder = data.entry i)
    (decodes : op.Decodes data) (isAddress : row.uncleanAddr = Register.ofU32 address) :
    op.traps (address.toNat % 4) = false ∧ row.lessThanWordOp = 1 ∧
      row.useHighWordInMemOps = fromBoolean (decide (address.toNat % 4 > 1)) := by
  have split := satisfied.bitmask
  rw [(satisfied.offset_eq decoder decodes isAddress).2] at split
  rcases exists_bitmask split.boolean with ⟨mask, maskBound, sum, _⟩
  have maskSmall : mask < 2 ^ 2 := maskBound
  have trapBound := Bool.toNat_le (op.traps (address.toNat % 4))
  have highBound := Bool.toNat_le (decide (address.toNat % 4 > 1))
  have sums := split.sum
  rw [sum, sub_eq_zero] at sums
  have values := congrArg ZMod.val sums
  have modulusValue : modulus = 2147483647 := rfl
  rw [val_natCast_of_lt (by omega), val_natCast_of_lt (by omega)] at values
  have noTrap : (op.traps (address.toNat % 4)).toNat = 0 := by omega
  rw [noTrap, Nat.mul_zero, Nat.add_zero] at split
  have bound : 1 + 2 * (decide (address.toNat % 4 > 1)).toNat <
      2 ^ [row.lessThanWordOp, row.useHighWordInMemOps].length := by
    change _ < 2 ^ 2
    omega
  have short : [row.lessThanWordOp, row.useHighWordInMemOps].length ≤ 30 := by
    change 2 ≤ 30
    decide
  have first : [row.lessThanWordOp, row.useHighWordInMemOps][0]? = some row.lessThanWordOp := rfl
  have second : [row.lessThanWordOp, row.useHighWordInMemOps][1]? =
      some row.useHighWordInMemOps := rfl
  refine ⟨Bool.toNat_eq_zero.mp noTrap, ?_, ?_⟩
  · rw [split.flag_eq bound short first]
    cases decide (address.toNat % 4 > 1) <;> rfl
  · rw [split.flag_eq bound short second]
    cases decide (address.toNat % 4 > 1) <;> rfl

theorem cleanAddr_eq (satisfied : row.Satisfied romBits image) (decoder : row.decoder = data.entry i)
    (decodes : op.Decodes data) (isAddress : row.uncleanAddr = Register.ofU32 address) :
    row.cleanAddr = Register.ofU32 (alignedAddress address) := by
  have clean : (alignedAddress address).toNat =
      (address.toNat % 2 ^ 16 - address.toNat % 4) + 2 ^ 16 * (address.toNat / 2 ^ 16) := by
    rw [toNat_alignedAddress]
    omega
  have offsetLe : address.toNat % 4 ≤ address.toNat % 2 ^ 16 := by omega
  rw [ofU32_of_limbs clean (by omega), cleanAddr, (satisfied.offset_eq decoder decodes isAddress).1,
    isAddress, Register.low_ofU32, Register.high_ofU32, Nat.cast_sub offsetLe]

theorem isRamRange_eq (satisfied : row.Satisfied romBits image)
    (isAddress : row.uncleanAddr = Register.ofU32 address) :
    row.isRamRange = fromBoolean (decide (romBytes romBits ≤ address.toNat)) := by
  have separator := satisfied.separator
  rw [cleanAddr, isAddress] at separator
  exact (separator_of_mem separator).1

/-- A load from the ROM: both lookups are taken. -/
theorem rom_load (small : romBits ≤ 14) (satisfied : row.Satisfied romBits image)
    (decoder : row.decoder = data.entry i) (decodes : op.Decodes data)
    (isAddress : row.uncleanAddr = Register.ofU32 address) (isLoad : op.isStore = false)
    (inRom : address.toNat < romBytes romBits) :
    let limbs := loadedLimbs op.funct3 (address.toNat % 4)
      (selectedLimb (address.toNat % 4) (image.getD (wordIdx address) unimpOpcode))
    row.rdCandidate = ⟨(limbs.1 : F), (limbs.2 : F)⟩ := by
  have notStore : row.isStore = 0 := by
    rw [isStore_eq decoder decodes, isLoad, fromBoolean_false]
  have notRam : row.isRamRange = 0 := by
    rw [satisfied.isRamRange_eq isAddress, decide_eq_false (Nat.not_le.mpr inRom),
      fromBoolean_false]
  have fromRom : row.loadFromRom = 1 := by
    rw [← sub_eq_zero.mp satisfied.loadFromRom, notStore, notRam, sub_zero, mul_one]
  have fromRam : row.loadFromRam = 0 := by
    rw [← sub_eq_zero.mp satisfied.loadFromRam, notRam, mul_zero]
  have isOffset := (satisfied.offset_eq decoder decodes isAddress).1
  have romRead := @SharedLookup.Enforced.of_taken [] [row.ramLoadLookup, row.clearOriginalLookup]
    row.romReadLookup _ _ _ satisfied.firstLookup fromRom
    (by simp [ramLoadLookup, clearOriginalLookup, fromRam, notStore]) rfl
  have keyBound := romKey_lt romBits address.toNat
  have words := four_mul_keys romBits
  have isWord : (row.firstOutputs.low, row.firstOutputs.high) =
      ((Register.ofU32 (image.getD (wordIdx address) unimpOpcode)).low,
        (Register.ofU32 (image.getD (wordIdx address) unimpOpcode)).high) := by
    change (row.romInput, row.firstOutputs.low, row.firstOutputs.high) ∈
      createTableForAlignedRomImage romBits image at romRead
    rw [romInput_eq satisfied.separator isAddress isOffset, createTableForAlignedRomImage,
      mem_tableForContinuousLog2Range (by omega) (by omega), romKey_eq inRom] at romRead
    rw [wordIdx_eq]
    exact romRead
  rcases Prod.mk.inj isWord with ⟨wordLow, wordHigh⟩
  have chooses := satisfied.romLimb
  rw [wordLow, wordHigh, (satisfied.bitmask_eq decoder decodes isAddress).2.2] at chooses
  have load := @SharedLookup.Enforced.of_taken [] [row.clearWrittenLookup]
    row.romLoadLookup _ _ _ satisfied.secondLookup fromRom
    (by simp [clearWrittenLookup, notStore]) rfl
  change (row.limbInput row.romLimbForSubwordSizeOps, row.secondOutputs.low,
    row.secondOutputs.high) ∈ createMemoryLoadHalfwordOrByteTable at load
  rw [chooses.selectedLimb_eq] at load
  rcases Prod.mk.inj ((limb_lookup_iff decoder decodes isOffset (selectedLimb_lt _ _)).mp load)
    with ⟨low, high⟩
  have candidateLow := satisfied.rdCandidateLow
  have candidateHigh := satisfied.rdCandidateHigh
  rw [fromRom, fromRam, zero_mul, one_mul, zero_add, sub_eq_zero] at candidateLow candidateHigh
  exact Register.ext (candidateLow.symm.trans low) (candidateHigh.symm.trans high)

/-- A load from the RAM: the first lookup is taken. -/
theorem ram_load (satisfied : row.Satisfied romBits image)
    (decoder : row.decoder = data.entry i) (decodes : op.Decodes data)
    (isAddress : row.uncleanAddr = Register.ofU32 address) (isLoad : op.isStore = false)
    (inRam : ¬ address.toNat < romBytes romBits)
    (readRange : row.rs2OrLoadReadValue.RangeChecked) :
    let limbs := loadedLimbs op.funct3 (address.toNat % 4)
      (selectedLimb (address.toNat % 4) row.rs2OrLoadReadValue.value)
    row.rdCandidate = ⟨(limbs.1 : F), (limbs.2 : F)⟩ := by
  have notStore : row.isStore = 0 := by
    rw [isStore_eq decoder decodes, isLoad, fromBoolean_false]
  have isRam : row.isRamRange = 1 := by
    rw [satisfied.isRamRange_eq isAddress, decide_eq_true (Nat.not_lt.mp inRam), fromBoolean_true]
  have fromRom : row.loadFromRom = 0 := by
    rw [← sub_eq_zero.mp satisfied.loadFromRom, isRam, sub_self, mul_zero]
  have fromRam : row.loadFromRam = 1 := by
    rw [← sub_eq_zero.mp satisfied.loadFromRam, notStore, isRam, sub_zero, mul_one]
  have chooses := satisfied.ramLimb
  rw [readRange.eq_ofU32, (satisfied.bitmask_eq decoder decodes isAddress).2.2] at chooses
  have isOffset := (satisfied.offset_eq decoder decodes isAddress).1
  have load := @SharedLookup.Enforced.of_taken [row.romReadLookup] [row.clearOriginalLookup]
    row.ramLoadLookup _ _ _ satisfied.firstLookup fromRam
    (by simp [romReadLookup, clearOriginalLookup, fromRom, notStore]) rfl
  change (row.limbInput row.ramLimbForSubwordSizeOps, row.firstOutputs.low,
    row.firstOutputs.high) ∈ createMemoryLoadHalfwordOrByteTable at load
  rw [chooses.selectedLimb_eq] at load
  rcases Prod.mk.inj ((limb_lookup_iff decoder decodes isOffset (selectedLimb_lt _ _)).mp load)
    with ⟨low, high⟩
  have candidateLow := satisfied.rdCandidateLow
  have candidateHigh := satisfied.rdCandidateHigh
  rw [fromRom, fromRam, zero_mul, one_mul, add_zero, sub_eq_zero] at candidateLow candidateHigh
  exact Register.ext (candidateLow.symm.trans low) (candidateHigh.symm.trans high)

/-- What a load leaves in the candidate for the destination register. -/
theorem rdCandidate_eq (small : romBits ≤ 14) (satisfied : row.Satisfied romBits image)
    (decoder : row.decoder = data.entry i) (decodes : op.Decodes data)
    (isAddress : row.uncleanAddr = Register.ofU32 address) (isLoad : op.isStore = false)
    (aligned : op.isHalfword → address.toNat % 2 = 0)
    (readRange : row.rs2OrLoadReadValue.RangeChecked) :
    row.rdCandidate = Register.ofU32 (op.loaded address
      (LoadStoreWordOnlyOp.loaded romBits image address row.rs2OrLoadReadValue.value)) := by
  rw [op.ofU32_loaded isLoad aligned, LoadStoreWordOnlyOp.loaded]
  by_cases inRom : address.toNat < romBytes romBits
  · rw [if_pos inRom]
    exact satisfied.rom_load small decoder decodes isAddress isLoad inRom
  · rw [if_neg inRom]
    exact satisfied.ram_load decoder decodes isAddress isLoad inRom readRange

/-- What a store leaves in memory. -/
theorem storeValue_eq (satisfied : row.Satisfied romBits image)
    (decoder : row.decoder = data.entry i) (decodes : op.Decodes data)
    (isAddress : row.uncleanAddr = Register.ofU32 address) (isStore : op.isStore = true)
    (aligned : op.isHalfword → address.toNat % 2 = 0)
    (readRange : row.rs2OrLoadReadValue.RangeChecked)
    (oldRange : row.rdOrStoreReadValue.RangeChecked) :
    row.storeValue = Register.ofU32 ((op.stored address row.rs2OrLoadReadValue.value
      row.rdOrStoreReadValue.value).getD row.rdOrStoreReadValue.value) := by
  rcases op.stored_eq isStore aligned row.rs2OrLoadReadValue.value row.rdOrStoreReadValue.value
    with ⟨word, stored, replaced⟩
  have store : row.isStore = 1 := by
    rw [isStore_eq decoder decodes, isStore, fromBoolean_true]
  have fromRom : row.loadFromRom = 0 := by
    rw [← sub_eq_zero.mp satisfied.loadFromRom, store, sub_self, zero_mul]
  have fromRam : row.loadFromRam = 0 := by
    rw [← sub_eq_zero.mp satisfied.loadFromRam, store, sub_self, zero_mul]
  rcases satisfied.bitmask_eq decoder decodes isAddress with ⟨_, lessThanWord, useHigh⟩
  have chooses := satisfied.updatedLimb
  rw [oldRange.eq_ofU32, useHigh] at chooses
  have original := @SharedLookup.Enforced.of_taken [row.romReadLookup, row.ramLoadLookup] []
    row.clearOriginalLookup _ _ _ satisfied.firstLookup store
    (by simp [romReadLookup, ramLoadLookup, fromRom, fromRam]) rfl
  change (row.limbInput row.updatedLimbInStore, row.firstOutputs.low, row.firstOutputs.high) ∈
    createMemoryStoreHalfwordOrByteClearSourceLimbTable at original
  rw [chooses.selectedLimb_eq] at original
  have written := @SharedLookup.Enforced.of_taken [row.romLoadLookup] []
    row.clearWrittenLookup _ _ _ satisfied.secondLookup store
    (by simp [romLoadLookup, fromRom]) rfl
  change (row.limbInput row.rs2OrLoadReadValue.low, row.secondOutputs.low,
    row.secondOutputs.high) ∈ createMemoryStoreHalfwordOrByteClearWrittenLimbTable at written
  have valueLow : row.rs2OrLoadReadValue.low =
      ((row.rs2OrLoadReadValue.value.toNat % 2 ^ 16 : Nat) : F) := by
    rw [← Register.low_ofU32, ← readRange.eq_ofU32]
  rw [valueLow] at written
  have isOffset := (satisfied.offset_eq decoder decodes isAddress).1
  have kept := (Prod.mk.inj ((limb_lookup_iff decoder decodes isOffset
    (selectedLimb_lt _ _)).mp original)).1
  have added := (Prod.mk.inj ((limb_lookup_iff decoder decodes isOffset
    (Nat.mod_lt _ (Nat.two_pow_pos 16))).mp written)).1
  have limb : row.firstOutputs.low + row.secondOutputs.low =
      (storedLimb op.funct3 (address.toNat % 4) row.rdOrStoreReadValue.value
        row.rs2OrLoadReadValue.value : F) := by
    rw [kept, added, storedLimb, Nat.cast_add]
  have low := satisfied.storeValueLow
  have high := satisfied.storeValueHigh
  rw [lessThanWord, ← sub_eq_zero.mp satisfied.storeLessThanWordLow, limb, useHigh] at low
  rw [lessThanWord, ← sub_eq_zero.mp satisfied.storeLessThanWordHigh, limb, useHigh] at high
  rw [stored, Option.getD_some, ofU32_replaceLimb replaced (storedLimb_lt _ _ _ _),
    ← oldRange.eq_ofU32]
  by_cases isHigh : address.toNat % 4 > 1
  · rw [decide_eq_true isHigh, fromBoolean_true] at low high
    rw [if_pos isHigh]
    apply Register.ext
    · linear_combination -low
    · linear_combination -high
  · rw [decide_eq_false isHigh, fromBoolean_false] at low high
    rw [if_neg isHigh]
    apply Register.ext
    · linear_combination -low
    · linear_combination -high

/-- A store into the ROM does not satisfy the constraints. -/
theorem aboveRom (satisfied : row.Satisfied romBits image) (decoder : row.decoder = data.entry i)
    (decodes : op.Decodes data) (isAddress : row.uncleanAddr = Register.ofU32 address)
    (isStore : op.isStore = true) : romBytes romBits ≤ address.toNat := by
  have inRam := satisfied.storeInRam
  rw [isStore_eq decoder decodes, isStore, fromBoolean_true, one_mul,
    satisfied.isRamRange_eq isAddress] at inRam
  by_contra below
  rw [decide_eq_false below] at inRam
  exact absurd inRam (by decide)

/-- An access that is not trapped is aligned, unless it is `LHU`. -/
theorem aligned (satisfied : row.Satisfied romBits image) (decoder : row.decoder = data.entry i)
    (decodes : op.Decodes data) (isAddress : row.uncleanAddr = Register.ofU32 address)
    (notLhu : op ≠ .lhu) : op.isHalfword → address.toNat % 2 = 0 := by
  intro halfword
  have noTrap := (satisfied.bitmask_eq decoder decodes isAddress).1
  cases op with
  | lh =>
      have even := of_decide_eq_false noTrap
      omega
  | sh =>
      have even := of_decide_eq_false noTrap
      omega
  | lhu => exact absurd rfl notLhu
  | lb => cases halfword
  | lbu => cases halfword
  | sb => cases halfword

/-- The accesses of an aligned row are those of its operation. -/
theorem queries_eq (small : romBits ≤ 14) (satisfied : row.Satisfied romBits image)
    (decoder : row.decoder = data.entry i) (decodes : op.Decodes data)
    (rs1Range : row.rs1.RangeChecked)
    (readRange : row.rs2OrLoadReadValue.RangeChecked)
    (oldRange : row.rdOrStoreReadValue.RangeChecked)
    (aligned : op.isHalfword → (row.rs1.value + data.imm).toNat % 2 = 0) :
    row.queries = op.queries romBits image data row.rs1.value row.rs2OrLoadReadValue.value
      row.rdOrStoreReadValue.value := by
  have isAddress := satisfied.address_eq decoder rs1Range
  have clean := satisfied.cleanAddr_eq decoder decodes isAddress
  have isStore := isStore_eq decoder decodes
  have secondLow := satisfied.rs2OrLoadAddressLow
  have secondHigh := satisfied.rs2OrLoadAddressHigh
  have thirdIsRegister := satisfied.rdOrStoreIsRegister
  have thirdLow := satisfied.rdOrStoreAddressLow
  have thirdHigh := satisfied.rdOrStoreAddressHigh
  cases store : op.isStore with
  | false =>
      rw [store, fromBoolean_false] at isStore
      have low := satisfied.loadLow
      have high := satisfied.loadHigh
      rw [isStore, decoder] at thirdLow
      rw [isStore, clean] at secondHigh
      rw [isStore, clean, decoder] at secondLow
      rw [isStore] at thirdHigh low high thirdIsRegister
      simp only [sub_zero, mul_one, mul_zero, zero_add, add_zero, zero_sub, neg_eq_zero,
        sub_eq_zero] at secondLow secondHigh thirdIsRegister thirdLow thirdHigh low high
      have masked : MaskRd row.rdCandidate (fromBoolean data.rdIsZero) row.rdMasked := by
        have maskedLow := satisfied.rdMaskedLow
        have maskedHigh := satisfied.rdMaskedHigh
        rw [decoder] at maskedLow maskedHigh
        exact ⟨by rw [mul_comm]; exact maskedLow, by rw [mul_comm]; exact maskedHigh⟩
      have written : row.rdOrStoreWriteValue = row.rdMasked := Register.ext low.symm high.symm
      rw [masked.eq, satisfied.rdCandidate_eq small decoder decodes isAddress store aligned
        readRange, decodes.rdIsZero, maskRd_ofU32] at written
      simp only [queries, LoadStoreSubwordOnlyOp.queries, ShuffleRamMemQuery.registerAccess,
        ShuffleRamMemQuery.ramAccess, store, Bool.false_eq_true, if_false, isStore, decoder,
        written, ← secondLow, ← secondHigh, ← thirdIsRegister, ← thirdLow, thirdHigh,
        ← rs1Range.eq_ofU32, ← readRange.eq_ofU32, ← oldRange.eq_ofU32]
      rfl
  | true =>
      rw [store, fromBoolean_true] at isStore
      have low := satisfied.storeLow
      have high := satisfied.storeHigh
      rw [isStore, clean] at thirdLow thirdHigh
      rw [isStore] at secondHigh low high thirdIsRegister
      rw [isStore, decoder] at secondLow
      simp only [sub_self, mul_one, mul_zero, zero_add, add_zero, zero_sub, neg_eq_zero,
        sub_eq_zero] at secondLow secondHigh thirdIsRegister thirdLow thirdHigh low high
      have written : row.rdOrStoreWriteValue = row.storeValue := Register.ext low.symm high.symm
      rw [satisfied.storeValue_eq decoder decodes isAddress store aligned readRange oldRange]
        at written
      simp only [queries, LoadStoreSubwordOnlyOp.queries, ShuffleRamMemQuery.registerAccess,
        ShuffleRamMemQuery.ramAccess, store, if_true, isStore, decoder, written, ← secondLow,
        secondHigh, thirdIsRegister, ← thirdLow, ← thirdHigh, ← rs1Range.eq_ofU32,
        ← readRange.eq_ofU32, ← oldRange.eq_ofU32]
      rfl

/-- The next program counter. -/
theorem pcNext_eq (satisfied : row.Satisfied romBits image) (decoder : row.decoder = data.entry i) :
    row.pcNext.RangeChecked ∧ row.pcNext.value = BitVec.ofNat 32 (4 * i) + 4 := by
  have step := satisfied.pcStep
  rw [decoder, data.entry_pc] at step
  have next := step.value_eq (Register.rangeChecked_ofU32 _) (by
    rw [Register.value_ofU32]
    exact toNat_pc_mod i)
  rw [Register.value_ofU32] at next
  exact next

end LoadStoreSubwordOnlyRow.Satisfied

end Soundness

/-! ## Completeness -/

section Completeness

variable {romBits : Nat} {image : List U32} {data : ExecutorFamilyDecoderData} {i : Nat}
  {op : LoadStoreSubwordOnlyOp}

/-- The outputs of the lookups: a store uses both slots, a load from the RAM only the first. -/
def LoadStoreSubwordOnlyOp.outputs (op : LoadStoreSubwordOnlyOp) (romBits : Nat)
    (image : List U32) (address second old : U32) : Register × Register :=
  let offset := address.toNat % 4
  let romWord := image.getD (wordIdx address) unimpOpcode
  let loadLimbs (word : U32) : Register :=
    let limbs := loadedLimbs op.funct3 offset (selectedLimb offset word)
    ⟨(limbs.1 : F), (limbs.2 : F)⟩
  if op.isStore then
    (⟨(keptLimb op.funct3 offset (selectedLimb offset old) : F), 0⟩,
      ⟨(writtenLimb op.funct3 offset (second.toNat % 2 ^ 16) : F), 0⟩)
  else if address.toNat < romBytes romBits then
    (Register.ofU32 romWord, loadLimbs romWord)
  else
    (loadLimbs second, ⟨0, 0⟩)

/-- The assignment for given operands, before the shared lookups are filled in. -/
def LoadStoreSubwordOnlyOp.honestColumns (op : LoadStoreSubwordOnlyOp) (romBits : Nat)
    (image : List U32) (data : ExecutorFamilyDecoderData) (i : Nat) (rs1 second old : U32)
    (overflow : F) (bumpPc : BumpPcWitness) : LoadStoreSubwordOnlyRow :=
  let address := rs1 + data.imm
  let limbs := Register.ofU32 address
  let offset := address.toNat % 4
  let clean := limbs.low - ((offset : Nat) : F)
  let isStore := fromBoolean op.isStore
  let isRam := fromBoolean (decide (romBytes romBits ≤ address.toNat))
  let useHigh := fromBoolean (decide (offset > 1))
  let choose (ifTrue ifFalse : F) : F := useHigh * (ifTrue - ifFalse) + ifFalse
  let secondRead := Register.ofU32 second
  let oldRead := Register.ofU32 old
  let outputs := op.outputs romBits image address second old
  let updated := outputs.1.low + outputs.2.low
  let loadFromRom := (1 - isStore) * (1 - isRam)
  let loadFromRam := (1 - isStore) * isRam
  let storeValue : Register := ⟨oldRead.low * useHigh + updated * (1 - useHigh),
    oldRead.high * (1 - useHigh) + updated * useHigh⟩
  let rdCandidate : Register := ⟨loadFromRam * outputs.1.low + loadFromRom * outputs.2.low,
    loadFromRam * outputs.1.high + loadFromRom * outputs.2.high⟩
  let rdMasked : Register := ⟨rdCandidate.low * (1 - fromBoolean data.rdIsZero),
    rdCandidate.high * (1 - fromBoolean data.rdIsZero)⟩
  { decoder := data.entry i
    pcNext := Register.ofU32 (BitVec.ofNat 32 (4 * i) + 4)
    rs1 := Register.ofU32 rs1
    uncleanAddr := limbs
    overflow := overflow
    offsetLowBits := ((offset : Nat) : F)
    memOffsetWithTrapTableBitmask := ((1 + 2 * (decide (offset > 1)).toNat : Nat) : F)
    lessThanWordOp := 1
    useHighWordInMemOps := useHigh
    isRamRange := isRam
    addressHighBitsForRom := ((limbs.high.val % 2 ^ romBits : Nat) : F)
    loadFromRom := loadFromRom
    loadFromRam := loadFromRam
    rs2OrLoadAddressLow := clean * (1 - isStore) + (data.rs2Index.toNat : F) * isStore
    rs2OrLoadAddressHigh := limbs.high * (1 - isStore)
    rs2OrLoadReadValue := secondRead
    rdOrStoreIsRegister := 1 - isStore
    rdOrStoreAddressLow := clean * isStore + (data.rdIndex.toNat : F) * (1 - isStore)
    rdOrStoreAddressHigh := limbs.high * isStore
    rdOrStoreReadValue := oldRead
    rdOrStoreWriteValue := if op.isStore then storeValue else rdMasked
    romLimbForSubwordSizeOps := choose outputs.1.high outputs.1.low
    ramLimbForSubwordSizeOps := choose secondRead.high secondRead.low
    updatedLimbInStore := choose oldRead.high oldRead.low
    firstOutputs := outputs.1
    secondOutputs := outputs.2
    firstLookup := ⟨⟨0, 0, 0⟩, 0⟩
    secondLookup := ⟨⟨0, 0, 0⟩, 0⟩
    storeLessThanWordValue := storeValue
    storeValue := storeValue
    rdCandidate := rdCandidate
    rdMasked := rdMasked
    bumpPc := bumpPc }

/-- The assignment with its shared lookups. -/
def LoadStoreSubwordOnlyOp.honestRow (op : LoadStoreSubwordOnlyOp) (romBits : Nat)
    (image : List U32) (data : ExecutorFamilyDecoderData) (i : Nat) (rs1 second old : U32)
    (overflow : F) (bumpPc : BumpPcWitness) : LoadStoreSubwordOnlyRow :=
  let row := op.honestColumns romBits image data i rs1 second old overflow bumpPc
  { row with
    firstLookup :=
      .ofRelations [row.romReadLookup, row.ramLoadLookup, row.clearOriginalLookup]
    secondLookup := .ofRelations [row.romLoadLookup, row.clearWrittenLookup] }

section Lookups

variable {rs1 second old : U32} {overflow : F} {bumpPc : BumpPcWitness}

/-- The flags of the branches. -/
theorem LoadStoreSubwordOnlyOp.honest_flags (decodes : op.Decodes data) :
    let row := op.honestColumns romBits image data i rs1 second old overflow bumpPc
    row.isStore = fromBoolean op.isStore ∧
      row.loadFromRom = fromBoolean (!op.isStore &&
        decide ((rs1 + data.imm).toNat < romBytes romBits)) ∧
      row.loadFromRam = fromBoolean (!op.isStore &&
        decide (romBytes romBits ≤ (rs1 + data.imm).toNat)) := by
  have notRam : decide ((rs1 + data.imm).toNat < romBytes romBits) =
      !decide (romBytes romBits ≤ (rs1 + data.imm).toNat) := by
    rw [← decide_not]
    exact decide_eq_decide.mpr Nat.not_le.symm
  refine ⟨decodes.entry_mask i, ?_, ?_⟩
  · rw [notRam]
    simp only [honestColumns]
    cases op.isStore <;> cases decide (romBytes romBits ≤ (rs1 + data.imm).toNat) <;> simp
  · simp only [honestColumns]
    cases op.isStore <;> cases decide (romBytes romBits ≤ (rs1 + data.imm).toNat) <;> simp

/-- The limb that the honest row chooses. -/
theorem choose_limb (offset : Nat) (word : U32) :
    fromBoolean (decide (offset > 1)) *
        ((Register.ofU32 word).high - (Register.ofU32 word).low) + (Register.ofU32 word).low =
      (selectedLimb offset word : F) :=
  LoadStoreSubwordOnlyRow.Chooses.selectedLimb_eq (sub_self _)

/-- The offset and the part of the address inside the ROM, which the keys are built from. -/
theorem LoadStoreSubwordOnlyOp.honest_separator :
    let row := op.honestColumns romBits image data i rs1 second old overflow bumpPc
    (row.uncleanAddr.high, row.isRamRange, row.addressHighBitsForRom) ∈
      createRomSeparatorTable romBits := by
  simp only [honestColumns]
  rw [← decide_eq_decide.mpr (romBytes_le_iff romBits _)]
  exact mem_romSeparatorTable.mpr ⟨(Register.rangeChecked_ofU32 _).2, rfl, rfl⟩

/-- The limbs that a load puts into its outputs are a row of the load table. -/
theorem LoadStoreSubwordOnlyOp.honest_load_lookup (decodes : op.Decodes data) (word : U32)
    {limb : F} (isLimb : limb = (selectedLimb ((rs1 + data.imm).toNat % 4) word : F)) :
    let limbs := loadedLimbs op.funct3 ((rs1 + data.imm).toNat % 4)
      (selectedLimb ((rs1 + data.imm).toNat % 4) word)
    ((op.honestColumns romBits image data i rs1 second old overflow bumpPc).limbInput limb,
      (limbs.1 : F), (limbs.2 : F)) ∈ createMemoryLoadHalfwordOrByteTable := by
  rw [isLimb]
  exact (LoadStoreSubwordOnlyRow.limb_lookup_iff rfl decodes rfl (selectedLimb_lt _ _)).mpr rfl

/-- The first slot of the honest row. -/
theorem LoadStoreSubwordOnlyOp.honest_firstLookup (small : romBits ≤ 14)
    (decodes : op.Decodes data) :
    let row := op.honestColumns romBits image data i rs1 second old overflow bumpPc
    (SharedLookup.ofRelations [row.romReadLookup, row.ramLoadLookup,
      row.clearOriginalLookup]).Enforced (subwordOnlyLoadStoreTables romBits image)
        [row.romReadLookup, row.ramLoadLookup, row.clearOriginalLookup] := by
  intro row
  have limbOfOld : row.updatedLimbInStore =
      (selectedLimb ((rs1 + data.imm).toNat % 4) old : F) := choose_limb _ _
  have limbOfRead : row.ramLimbForSubwordSizeOps =
      (selectedLimb ((rs1 + data.imm).toNat % 4) second : F) := choose_limb _ _
  have isOutputs : row.firstOutputs =
    (op.outputs romBits image (rs1 + data.imm) second old).1 := rfl
  rcases op.honest_flags decodes with ⟨store, fromRom, fromRam⟩
  change row.isStore = _ at store
  change row.loadFromRom = _ at fromRom
  change row.loadFromRam = _ at fromRam
  cases isStore : op.isStore with
  | true =>
      rw [isStore, fromBoolean_true] at store
      rw [isStore, Bool.not_true, Bool.false_and, fromBoolean_false] at fromRom fromRam
      apply @SharedLookup.enforced_of_taken [row.romReadLookup, row.ramLoadLookup] []
        row.clearOriginalLookup _ .memStoreClearOriginalRamValueLimb store
      · simp [LoadStoreSubwordOnlyRow.romReadLookup, LoadStoreSubwordOnlyRow.ramLoadLookup,
          fromRom, fromRam]
      · rfl
      · change (row.limbInput row.updatedLimbInStore, row.firstOutputs.low,
          row.firstOutputs.high) ∈ createMemoryStoreHalfwordOrByteClearSourceLimbTable
        rw [limbOfOld, isOutputs, outputs, if_pos isStore]
        exact (LoadStoreSubwordOnlyRow.limb_lookup_iff rfl decodes rfl
          (selectedLimb_lt _ _)).mpr rfl
  | false =>
      rw [isStore, fromBoolean_false] at store
      rw [isStore, Bool.not_false, Bool.true_and] at fromRom fromRam
      by_cases inRom : (rs1 + data.imm).toNat < romBytes romBits
      · rw [decide_eq_true inRom, fromBoolean_true] at fromRom
        rw [decide_eq_false (Nat.not_le.mpr inRom), fromBoolean_false] at fromRam
        apply @SharedLookup.enforced_of_taken [] [row.ramLoadLookup, row.clearOriginalLookup]
          row.romReadLookup _ .alignedRomRead fromRom
        · simp [LoadStoreSubwordOnlyRow.ramLoadLookup,
            LoadStoreSubwordOnlyRow.clearOriginalLookup, fromRam, store]
        · rfl
        · have keyBound := romKey_lt romBits (rs1 + data.imm).toNat
          have words := four_mul_keys romBits
          change (row.romInput, row.firstOutputs.low, row.firstOutputs.high) ∈
            createTableForAlignedRomImage romBits image
          rw [LoadStoreSubwordOnlyRow.romInput_eq op.honest_separator rfl rfl, isOutputs, outputs,
            if_neg (by simp [isStore]), if_pos inRom, createTableForAlignedRomImage,
            mem_tableForContinuousLog2Range (by omega) (by omega), romKey_eq inRom, ← wordIdx_eq]
      · rw [decide_eq_false inRom, fromBoolean_false] at fromRom
        rw [decide_eq_true (Nat.not_lt.mp inRom), fromBoolean_true] at fromRam
        apply @SharedLookup.enforced_of_taken [row.romReadLookup] [row.clearOriginalLookup]
          row.ramLoadLookup _ .memoryLoadHalfwordOrByte fromRam
        · simp [LoadStoreSubwordOnlyRow.romReadLookup,
            LoadStoreSubwordOnlyRow.clearOriginalLookup, fromRom, store]
        · rfl
        · change (row.limbInput row.ramLimbForSubwordSizeOps, row.firstOutputs.low,
            row.firstOutputs.high) ∈ createMemoryLoadHalfwordOrByteTable
          rw [isOutputs, outputs, if_neg (by simp [isStore]), if_neg inRom]
          exact op.honest_load_lookup decodes second limbOfRead

/-- The second slot of the honest row, which is empty for a load from the RAM. -/
theorem LoadStoreSubwordOnlyOp.honest_secondLookup (decodes : op.Decodes data) :
    let row := op.honestColumns romBits image data i rs1 second old overflow bumpPc
    (SharedLookup.ofRelations [row.romLoadLookup, row.clearWrittenLookup]).Enforced
      (subwordOnlyLoadStoreTables romBits image) [row.romLoadLookup, row.clearWrittenLookup] := by
  intro row
  have isOutputs : row.secondOutputs =
    (op.outputs romBits image (rs1 + data.imm) second old).2 := rfl
  rcases op.honest_flags decodes with ⟨store, fromRom, _⟩
  change row.isStore = _ at store
  change row.loadFromRom = _ at fromRom
  cases isStore : op.isStore with
  | true =>
      rw [isStore, fromBoolean_true] at store
      rw [isStore, Bool.not_true, Bool.false_and, fromBoolean_false] at fromRom
      apply @SharedLookup.enforced_of_taken [row.romLoadLookup] []
        row.clearWrittenLookup _ .memStoreClearWrittenValueLimb store
      · simp [LoadStoreSubwordOnlyRow.romLoadLookup, fromRom]
      · rfl
      · have valueLow : row.rs2OrLoadReadValue.low = ((second.toNat % 2 ^ 16 : Nat) : F) :=
          Register.low_ofU32 second
        change (row.limbInput row.rs2OrLoadReadValue.low, row.secondOutputs.low,
          row.secondOutputs.high) ∈ createMemoryStoreHalfwordOrByteClearWrittenLimbTable
        rw [valueLow, isOutputs, outputs, if_pos isStore]
        exact (LoadStoreSubwordOnlyRow.limb_lookup_iff rfl decodes rfl
          (Nat.mod_lt _ (Nat.two_pow_pos 16))).mpr rfl
  | false =>
      rw [isStore, fromBoolean_false] at store
      rw [isStore, Bool.not_false, Bool.true_and] at fromRom
      by_cases inRom : (rs1 + data.imm).toNat < romBytes romBits
      · rw [decide_eq_true inRom, fromBoolean_true] at fromRom
        have isWord : row.firstOutputs =
            Register.ofU32 (image.getD (wordIdx (rs1 + data.imm)) unimpOpcode) := by
          change (op.outputs romBits image (rs1 + data.imm) second old).1 = _
          rw [outputs, if_neg (by simp [isStore]), if_pos inRom]
        have limbOfRom : row.romLimbForSubwordSizeOps =
            (selectedLimb ((rs1 + data.imm).toNat % 4)
              (image.getD (wordIdx (rs1 + data.imm)) unimpOpcode) : F) := by
          rw [← choose_limb, ← isWord]
          rfl
        apply @SharedLookup.enforced_of_taken [] [row.clearWrittenLookup]
          row.romLoadLookup _ .memoryLoadHalfwordOrByte fromRom
        · simp [LoadStoreSubwordOnlyRow.clearWrittenLookup, store]
        · rfl
        · change (row.limbInput row.romLimbForSubwordSizeOps, row.secondOutputs.low,
            row.secondOutputs.high) ∈ createMemoryLoadHalfwordOrByteTable
          rw [isOutputs, outputs, if_neg (by simp [isStore]), if_pos inRom]
          exact op.honest_load_lookup decodes _ limbOfRom
      · rw [decide_eq_false inRom, fromBoolean_false] at fromRom
        apply SharedLookup.enforced_of_zero
        · simp [LoadStoreSubwordOnlyRow.romLoadLookup, LoadStoreSubwordOnlyRow.clearWrittenLookup,
            fromRom, store]
        · exact List.mem_singleton.mpr rfl

/-- The branches do not read the columns of the shared lookups. -/
theorem LoadStoreSubwordOnlyRow.firstLookup_filled {tables : Tables}
    (row : LoadStoreSubwordOnlyRow) (first second : SharedLookup) :
    let filled := { row with firstLookup := first, secondLookup := second }
    filled.firstLookup.Enforced tables
        [filled.romReadLookup, filled.ramLoadLookup, filled.clearOriginalLookup] ↔
      first.Enforced tables [row.romReadLookup, row.ramLoadLookup, row.clearOriginalLookup] :=
  Iff.rfl

theorem LoadStoreSubwordOnlyRow.secondLookup_filled {tables : Tables}
    (row : LoadStoreSubwordOnlyRow) (first second : SharedLookup) :
    let filled := { row with firstLookup := first, secondLookup := second }
    filled.secondLookup.Enforced tables [filled.romLoadLookup, filled.clearWrittenLookup] ↔
      second.Enforced tables [row.romLoadLookup, row.clearWrittenLookup] :=
  Iff.rfl

/-- The flags of the honest row are the bitmask of its access. -/
theorem splitIntoBitmask_offset (high : Bool) :
    SplitIntoBitmask [1, fromBoolean high] ((1 + 2 * high.toNat : Nat) : F) := by
  have bound : 1 + 2 * high.toNat < 2 ^ 2 := by
    have highBound := Bool.toNat_le high
    omega
  have flags : bitmaskFlags (1 + 2 * high.toNat) 2 = [1, fromBoolean high] := by
    cases high with
    | false => rfl
    | true => rfl
  rw [← flags]
  exact splitIntoBitmask_flags bound

theorem lessThanWord_select (value word : F) : value * 1 + word * (1 - 1) - value = 0 := by ring

/-- The words that a row writes, by the flag of a store. -/
theorem write_select (isStore : Bool) (stored loaded : Register) (limb : Register → F) :
    (limb loaded - limb (if isStore then stored else loaded)) * (1 - fromBoolean isStore) = 0 ∧
      (limb stored - limb (if isStore then stored else loaded)) * fromBoolean isStore = 0 := by
  cases isStore with
  | false => simp
  | true => simp

end Lookups

/-- Operands whose access does not trap, and is above the ROM for a store, have a satisfying
row. -/
theorem LoadStoreSubwordOnlyOp.exists_row (small : romBits ≤ 14) (decodes : op.Decodes data)
    {rs1 : U32} (second old : U32) (noTrap : op.traps ((rs1 + data.imm).toNat % 4) = false)
    (aboveRom : op.isStore = true → romBytes romBits ≤ (rs1 + data.imm).toNat) :
    ∃ row : LoadStoreSubwordOnlyRow, row.Satisfied romBits image ∧ row.decoder = data.entry i ∧
      row.rs1 = Register.ofU32 rs1 ∧ row.rs2OrLoadReadValue = Register.ofU32 second ∧
      row.rdOrStoreReadValue = Register.ofU32 old := by
  rcases exists_bumpPc (BitVec.ofNat 32 (4 * i)) (toNat_pc_mod i) with ⟨bumpPc, pcStep⟩
  rcases exists_regAddAndOverflow rs1 data.imm with ⟨overflow, sum⟩
  refine ⟨op.honestRow romBits image data i rs1 second old overflow bumpPc, ?_, rfl, rfl, rfl,
    rfl⟩
  have flag : (op.honestRow romBits image data i rs1 second old overflow bumpPc).isStore =
      fromBoolean op.isStore := decodes.entry_mask i
  constructor
  case mask =>
    rw [flag]
    cases op.isStore <;> decide
  case address => exact sum
  case offsetAndMask =>
    rw [LoadStoreSubwordOnlyRow.offsetAndMask_iff rfl decodes rfl, noTrap, Bool.toNat_false,
      Nat.mul_zero, Nat.add_zero]
    rfl
  case bitmask => exact splitIntoBitmask_offset _
  case separator =>
    exact @LoadStoreSubwordOnlyOp.honest_separator romBits image data i op rs1 second old overflow
      bumpPc
  case storeInRam =>
    rw [flag]
    cases isStore : op.isStore with
    | false => exact zero_mul _
    | true =>
        simp only [honestRow, honestColumns, decide_eq_true (aboveRom isStore)]
        decide
  case firstLookup =>
    exact (LoadStoreSubwordOnlyRow.firstLookup_filled _ _ _).mpr
      (op.honest_firstLookup small decodes)
  case secondLookup =>
    exact (LoadStoreSubwordOnlyRow.secondLookup_filled _ _ _).mpr
      (op.honest_secondLookup decodes)
  case storeValueLow => exact lessThanWord_select _ _
  case storeValueHigh => exact lessThanWord_select _ _
  case loadLow =>
    rw [flag]
    exact (write_select op.isStore _ _ Register.low).1
  case loadHigh =>
    rw [flag]
    exact (write_select op.isStore _ _ Register.high).1
  case storeLow =>
    rw [flag]
    exact (write_select op.isStore _ _ Register.low).2
  case storeHigh =>
    rw [flag]
    exact (write_select op.isStore _ _ Register.high).2
  case pcStep =>
    simp only [honestRow, honestColumns, data.entry_pc]
    exact pcStep
  -- the other columns are defined by their constraints
  all_goals
    first
    | rw [flag]
      exact sub_self _
    | exact sub_self _

end Completeness

/-! ## The executor -/

section Executor

open Vm Bigint

variable {C : Type} [Counters C] {romBits : Nat} {ND : Type} [NonDeterminismCSRSource ND]
  {image : List U32} {data : ExecutorFamilyDecoderData} {address : U32}
  {machine machine' : Machine C romBits ND} {events : List SnapshotEvent}

namespace LoadStoreSubwordOnlyOp

/-- The alignment that the executor asserts. -/
def size (op : LoadStoreSubwordOnlyOp) : U32 := if op.isHalfword then 2 else 1

theorem opcodeOf_load (op : LoadStoreSubwordOnlyOp) (isLoad : op.isStore = false) :
    opcodeOf op.name = some (.load .loadStoreSubwordOnly op.size op.loaded) := by
  cases op with
  | lb => rfl
  | lh => rfl
  | lbu => rfl
  | lhu => rfl
  | sb => cases isLoad
  | sh => cases isLoad

theorem opcodeOf_store (op : LoadStoreSubwordOnlyOp) (isStore : op.isStore = true) :
    opcodeOf op.name = some (.store .loadStoreSubwordOnly op.size op.stored) := by
  cases op with
  | sb => rfl
  | sh => rfl
  | lb => cases isStore
  | lh => cases isStore
  | lbu => cases isStore
  | lhu => cases isStore

theorem even_of_size (op : LoadStoreSubwordOnlyOp) (aligned : address % op.size = 0)
    (halfword : op.isHalfword) : address.toNat % 2 = 0 := by
  rw [size, if_pos halfword] at aligned
  exact congrArg BitVec.toNat aligned

/-- An even half-word access does not trap. -/
theorem traps_of_even (op : LoadStoreSubwordOnlyOp)
    (even : op.isHalfword → address.toNat % 2 = 0) : op.traps (address.toNat % 4) = false := by
  cases op with
  | lh =>
      have isEven := even rfl
      exact decide_eq_false (by omega)
  | sh =>
      have isEven := even rfl
      exact decide_eq_false (by omega)
  | lb => rfl
  | lbu => rfl
  | lhu => rfl
  | sb => rfl

/-- What a step of the executor does to the words that the queries are about.  As for whole words,
the RAM query of a load from the ROM reads the zero that the ROM range is initialised with. -/
def Performed (op : LoadStoreSubwordOnlyOp) (image : List U32)
    (data : ExecutorFamilyDecoderData) (machine machine' : Machine C romBits ND)
    (second old : U32) : Prop :=
  let address := (machine.state.registers data.rs1Index).value + data.imm
  let slot := wordIdx (alignedAddress address)
  if op.isStore then
    second = (machine.state.registers data.rs2Index).value ∧
      old = (machine.ram.backing slot).value ∧
      op.stored address second old = some (machine'.ram.backing slot).value
  else
    second = (if address.toNat < romBytes romBits then 0 else (machine.ram.backing slot).value) ∧
      old = (machine.state.registers data.rdIndex).value ∧
      (machine'.state.registers data.rdIndex).value = State.maskRd data.rdIndex
        (op.loaded address (LoadStoreWordOnlyOp.loaded romBits image address second))

theorem wordIdx_alignedAddress (address : U32) :
    wordIdx (alignedAddress address) = wordIdx address := by
  rw [wordIdx_eq, wordIdx_eq, toNat_alignedAddress]
  omega

/-- A load or a store that does not panic is aligned, stores above the ROM, and performs the
queries of its operation. -/
theorem execute_performed [Ruint] (op : LoadStoreSubwordOnlyOp)
    (full : image.length = romWords romBits) (holds : machine.ram.HoldsRom image)
    (executed : execute machine (data.instruction op.name) = some (machine', events)) :
    let address := (machine.state.registers data.rs1Index).value + data.imm
    (op.isHalfword → address.toNat % 2 = 0) ∧
      (op.isStore = true → romBytes romBits ≤ address.toNat) ∧
      machine'.state.pc = machine.state.pc + 4 ∧
      ∃ second old, op.Performed image data machine machine' second old := by
  generalize isAddress : (machine.state.registers data.rs1Index).value + data.imm = address
  rw [execute_eq] at executed
  cases isStore : op.isStore with
  | false =>
      simp only [ExecutorFamilyDecoderData.instruction, op.opcodeOf_load isStore,
        Option.bind_some, executeOpcode, Machine.onMemory, Option.map_eq_some_iff, Prod.exists,
        Prod.mk.injEq] at executed
      rcases executed with ⟨state', ram', _, loadedWord, rfl, _⟩
      have aligned := loadOp_aligned loadedWord
      rcases loadOp_eq_some loadedWord with ⟨readTimestamp, word, _, found, _, _, rfl⟩
      simp only [isAddress] at aligned found
      have value : LoadStoreWordOnlyOp.loaded romBits image address
          (if address.toNat < romBytes romBits then 0
            else (machine.ram.backing (wordIdx (alignedAddress address))).value) = word := by
        rw [LoadStoreWordOnlyOp.loaded]
        by_cases inRom : address.toNat < romBytes romBits
        · rw [if_pos inRom, holds.getD full (wordIdx_lt_romWords inRom),
            ← wordIdx_alignedAddress, found]
        · rw [if_neg inRom, if_neg inRom, found]
      refine ⟨op.even_of_size aligned, ?_, rfl,
        if address.toNat < romBytes romBits then 0
          else (machine.ram.backing (wordIdx (alignedAddress address))).value,
        (machine.state.registers data.rdIndex).value, ?_⟩
      · intro store
        cases store
      rw [Performed, if_neg (by simp [isStore]), isAddress]
      refine ⟨rfl, rfl, ?_⟩
      rw [value]
      exact State.writeRegister_value_self 2 data.rdIndex (op.loaded address word) _
  | true =>
      simp only [ExecutorFamilyDecoderData.instruction, op.opcodeOf_store isStore,
        Option.bind_some, executeOpcode, Machine.onMemory, Option.map_eq_some_iff, Prod.exists,
        Prod.mk.injEq] at executed
      rcases executed with ⟨state', ram', _, storedWord, rfl, _⟩
      have aligned := storeOp_aligned storedWord
      rcases storeOp_eq_some storedWord with
        ⟨readTimestamp, oldValue, word, merged, _, aboveRom, found, rfl, _, rfl⟩
      simp only [isAddress] at aligned aboveRom merged found
      have clean := toNat_alignedAddress address
      have bound := romBytes_le_of_slot (by omega) aboveRom
      refine ⟨op.even_of_size aligned, fun _ => by omega, rfl,
        (machine.state.registers data.rs2Index).value, oldValue, ?_⟩
      rw [Performed, if_pos isStore, isAddress]
      refine ⟨rfl, by rw [found], ?_⟩
      simp only [RamWithRomRegion.setSlot_backing, Function.update_self]
      exact merged

end LoadStoreSubwordOnlyOp

end Executor

/-! ## Where the circuit is exact -/

section Exact

open Vm Bigint

variable {supportedCsrs : List U16} {i : Nat} {opcode : U32} {entry : DecoderTableEntry}
  {romBits : Nat} {image : List U32} {C : Type} [Counters C] {ND : Type}
  [NonDeterminismCSRSource ND]

theorem exists_loadStoreSubwordOnlyOp
    (produced : preprocessOpcode .subwordOnlyMemoryFamilyDecoder supportedCsrs i opcode =
      some (some entry)) :
    ∃ op : LoadStoreSubwordOnlyOp, op.arm.Covers opcode ∧
      entry = (op.arm.decoded opcode).entry i := by
  rcases preprocessOpcode_eq_some produced with ⟨arm, member, covers, rfl, _⟩
  rw [OpcodeFamilyDecoder.arms, LoadStoreSubwordOnlyOp.arms_eq] at member
  rcases List.mem_map.mp member with ⟨op, _, rfl⟩
  exact ⟨op, covers, rfl⟩

theorem LoadStoreSubwordOnlyOp.decodes_decoded (op : LoadStoreSubwordOnlyOp)
    (covers : op.arm.Covers opcode) : op.Decodes (op.arm.decoded opcode) := by
  have funct3 : ∀ fixed ∈ op.arm.funct3, (Ir.funct3Bits opcode).toNat = fixed.toNat :=
    fun fixed isFixed => congrArg BitVec.toNat (covers.2.1 fixed isFixed)
  cases op <;> exact ⟨funct3 _ rfl, rfl, rfl⟩

/-- The circuit is exact on an operation of the decoder with an operand `rs1`.  Every satisfying
assignment over register and memory values of two limbs has an even address if it accesses a
half-word, an address above the ROM if it stores, makes exactly the accesses of its operation and
moves to the next word.  Every step of the executor over the ROM image has a satisfying
assignment whose accesses are the words that the step reads and writes. -/
structure LoadStoreSubwordOnlyOp.ExactAt [Ruint] (op : LoadStoreSubwordOnlyOp) (C ND : Type)
    [Counters C] [NonDeterminismCSRSource ND] (romBits : Nat) (image : List U32)
    (data : ExecutorFamilyDecoderData) (i : Nat) (rs1 : U32) : Prop where
  sound : ∀ row : LoadStoreSubwordOnlyRow, row.Satisfied romBits image →
    row.decoder = data.entry i → row.rs1.RangeChecked → row.rs2OrLoadReadValue.RangeChecked →
    row.rdOrStoreReadValue.RangeChecked → row.rs1.value = rs1 →
    (op.isHalfword → (rs1 + data.imm).toNat % 2 = 0) ∧
      (op.isStore = true → romBytes romBits ≤ (rs1 + data.imm).toNat) ∧
      row.queries = op.queries romBits image data rs1 row.rs2OrLoadReadValue.value
        row.rdOrStoreReadValue.value ∧
      row.pcNext.RangeChecked ∧ row.pcNext.value = BitVec.ofNat 32 (4 * i) + 4
  complete : ∀ (machine machine' : Machine C romBits ND) (events : List SnapshotEvent),
    (machine.state.registers data.rs1Index).value = rs1 →
    machine.state.pc = BitVec.ofNat 32 (4 * i) →
    image.length = romWords romBits → machine.ram.HoldsRom image →
    execute machine (data.instruction op.name) = some (machine', events) →
    ∃ (row : LoadStoreSubwordOnlyRow) (second old : U32),
      row.Satisfied romBits image ∧ row.decoder = data.entry i ∧ row.rs1 = Register.ofU32 rs1 ∧
        row.rs2OrLoadReadValue.RangeChecked ∧ row.rdOrStoreReadValue.RangeChecked ∧
        row.queries = op.queries romBits image data rs1 second old ∧
        op.Performed image data machine machine' second old ∧
        row.pcNext.value = machine'.state.pc

/-- Soundness at an address that the operation may access. -/
theorem LoadStoreSubwordOnlyRow.Satisfied.sound {op : LoadStoreSubwordOnlyOp}
    {data : ExecutorFamilyDecoderData} {row : LoadStoreSubwordOnlyRow} (small : romBits ≤ 14)
    (decodes : op.Decodes data) (satisfied : row.Satisfied romBits image)
    (decoder : row.decoder = data.entry i) (rs1Range : row.rs1.RangeChecked)
    (readRange : row.rs2OrLoadReadValue.RangeChecked)
    (oldRange : row.rdOrStoreReadValue.RangeChecked)
    (aligned : op.isHalfword → (row.rs1.value + data.imm).toNat % 2 = 0) :
    (op.isStore = true → romBytes romBits ≤ (row.rs1.value + data.imm).toNat) ∧
      row.queries = op.queries romBits image data row.rs1.value row.rs2OrLoadReadValue.value
        row.rdOrStoreReadValue.value ∧
      row.pcNext.RangeChecked ∧ row.pcNext.value = BitVec.ofNat 32 (4 * i) + 4 :=
  ⟨satisfied.aboveRom decoder decodes (satisfied.address_eq decoder rs1Range),
    satisfied.queries_eq small decoder decodes rs1Range readRange oldRange aligned,
    satisfied.pcNext_eq decoder⟩

/-- The sub-word memory circuit is exact except for `LHU`.  A row of its decoder belongs to one of
the six operations, and the circuit is exact on it unless it is an `LHU` from an odd address,
which the offset table does not trap.  The addresses of the ROM fit the field. -/
theorem loadStoreSubwordOnly_exact_iff [Ruint] (small : romBits ≤ 14)
    (produced : preprocessOpcode .subwordOnlyMemoryFamilyDecoder supportedCsrs i opcode =
      some (some entry)) :
    ∃ op : LoadStoreSubwordOnlyOp, op.arm.Covers opcode ∧
      entry = (op.arm.decoded opcode).entry i ∧
      ∀ rs1 : U32, op.ExactAt C ND romBits image (op.arm.decoded opcode) i rs1 ↔
        ¬(op = .lhu ∧ (rs1 + (op.arm.decoded opcode).imm).toNat % 2 = 1) := by
  rcases exists_loadStoreSubwordOnlyOp produced with ⟨op, covers, rfl⟩
  have decodes := op.decodes_decoded covers
  refine ⟨op, covers, rfl, ?_⟩
  intro rs1
  generalize op.arm.decoded opcode = data at decodes ⊢
  constructor
  · rintro isExact ⟨rfl, odd⟩
    rcases @LoadStoreSubwordOnlyOp.exists_row romBits image data i .lhu small decodes rs1 0 0 rfl
      (fun store => absurd store (by decide)) with ⟨row, satisfied, decoder, isRs1, isRead, isOld⟩
    have even := (isExact.sound row satisfied decoder (isRs1 ▸ Register.rangeChecked_ofU32 _)
      (isRead ▸ Register.rangeChecked_ofU32 _) (isOld ▸ Register.rangeChecked_ofU32 _)
      (by rw [isRs1, Register.value_ofU32])).1 rfl
    omega
  · intro notOddLhu
    constructor
    case sound =>
      rintro row satisfied decoder rs1Range readRange oldRange rfl
      have isAddress := satisfied.address_eq decoder rs1Range
      have aligned : op.isHalfword → (row.rs1.value + data.imm).toNat % 2 = 0 := by
        by_cases isLhu : op = .lhu
        · intro _
          have notOdd : ¬(row.rs1.value + data.imm).toNat % 2 = 1 := fun odd =>
            notOddLhu ⟨isLhu, odd⟩
          omega
        · exact satisfied.aligned decoder decodes isAddress isLhu
      exact ⟨aligned, satisfied.sound small decodes decoder rs1Range readRange oldRange aligned⟩
    case complete =>
      rintro machine machine' events rfl atPc full holds executed
      rcases op.execute_performed full holds executed with
        ⟨aligned, aboveRom, moved, second, old, performed⟩
      rcases @LoadStoreSubwordOnlyOp.exists_row romBits image data i op small decodes _ second old
        (op.traps_of_even aligned) aboveRom with
        ⟨row, satisfied, decoder, isRs1, isRead, isOld⟩
      have rs1Range : row.rs1.RangeChecked := isRs1 ▸ Register.rangeChecked_ofU32 _
      have readRange : row.rs2OrLoadReadValue.RangeChecked :=
        isRead ▸ Register.rangeChecked_ofU32 _
      have oldRange : row.rdOrStoreReadValue.RangeChecked := isOld ▸ Register.rangeChecked_ofU32 _
      have isValue : row.rs1.value = (machine.state.registers data.rs1Index).value := by
        rw [isRs1, Register.value_ofU32]
      rcases satisfied.sound small decodes decoder rs1Range readRange oldRange
        (by rw [isValue]; exact aligned) with ⟨_, queries, _, pcNext⟩
      refine ⟨row, second, old, satisfied, decoder, isRs1, readRange, oldRange, ?_, performed, ?_⟩
      · rw [queries, isValue, isRead, isOld, Register.value_ofU32, Register.value_ofU32]
      · rw [pcNext, moved, atPc]

/-- The circuit loads a half-word from `0x400004`, and zero from the odd address `0x400005`. -/
theorem loadStoreSubwordOnly_exact_lhu :
    LoadStoreSubwordOnlyOp.lhu.ExactAt DelegationsCounters Unit romSecondWordBits
        (List.replicate (2 ^ 20) 7)
        (LoadStoreSubwordOnlyOp.lhu.arm.decoded 0x0000d103) 0 0x400004 ∧
      ¬LoadStoreSubwordOnlyOp.lhu.ExactAt DelegationsCounters Unit romSecondWordBits
        (List.replicate (2 ^ 20) 7)
        (LoadStoreSubwordOnlyOp.lhu.arm.decoded 0x0000d103) 0 0x400005 := by
  have produced : preprocessOpcode .subwordOnlyMemoryFamilyDecoder [] 0 0x0000d103 =
      some (some ((LoadStoreSubwordOnlyOp.lhu.arm.decoded 0x0000d103).entry 0)) := by decide
  rcases @loadStoreSubwordOnly_exact_iff [] 0 0x0000d103 _ romSecondWordBits
    (List.replicate (2 ^ 20) 7) DelegationsCounters _ Unit _ _ (by decide) produced
    with ⟨op, covers, _, exactIff⟩
  have isLhu : op = .lhu := by
    cases op <;> first | rfl | exact absurd covers (by decide)
  subst isLhu
  constructor
  · exact (exactIff 0x400004).mpr fun odd => absurd odd.2 (by decide)
  · exact fun isExact => (exactIff 0x400005).mp isExact ⟨rfl, by decide⟩

end Exact

end Airbender.Circuit
