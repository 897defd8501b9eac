import Airbender.Circuit.Executor
import Airbender.Circuit.MemoryAccess

/-!
# The word memory circuit

`LW` and `SW` share their columns: the second and the third access of a row are a register and
a RAM word, in an order that depends on the store flag.
-/

namespace Airbender.Circuit

/-! ## Operations -/

inductive LoadStoreWordOnlyOp where
  | lw
  | sw
deriving DecidableEq, Repr

namespace LoadStoreWordOnlyOp

def all : List LoadStoreWordOnlyOp := [lw, sw]

def isStore : LoadStoreWordOnlyOp → Bool
  | lw => false
  | sw => true

open Ir DecoderArm in
/-- The arm of the decoder. -/
def arm : LoadStoreWordOnlyOp → DecoderArm
  | lw => iType opcodeLoad 0b010 none (familyBits [])
  | sw => sType opcodeStore 0b010 (familyBits [writeBit])

/-- The instruction of the executor. -/
def name : LoadStoreWordOnlyOp → InstructionName
  | lw => .lw
  | sw => .sw

theorem arms_eq : wordOnlyMemoryArms = all.map arm := rfl

/-- What a load returns: below the bound the word of the image, whatever the RAM query read. -/
def loaded (romBits : Nat) (image : List U32) (address ramWord : U32) : U32 :=
  if address.toNat < romBytes romBits then image.getD (wordIdx address) unimpOpcode else ramWord

/-- The accesses of an operation.  `second` is the value of the second access, which changes
nothing, and `old` is the value that the third access overwrites. -/
def queries (op : LoadStoreWordOnlyOp) (romBits : Nat) (image : List U32)
    (data : ExecutorFamilyDecoderData) (rs1 second old : U32) : List ShuffleRamMemQuery :=
  let address := rs1 + data.imm
  match op with
  | lw =>
      [.registerAccess 0 data.rs1Index rs1 rs1,
        .ramAccess rs2LoadLocalTimestamp address second second,
        .registerAccess rdStoreLocalTimestamp data.rdIndex old
          (State.maskRd data.rdIndex (loaded romBits image address second))]
  | sw =>
      [.registerAccess 0 data.rs1Index rs1 rs1,
        .registerAccess rs2LoadLocalTimestamp data.rs2Index second second,
        .ramAccess rdStoreLocalTimestamp address old second]

end LoadStoreWordOnlyOp

/-! ## The constraints -/

structure LoadStoreWordOnlyRow where
  decoder : DecoderTableEntry
  pcNext : Register
  rs1 : Register
  uncleanAddr : Register
  overflow : F
  isRamRange : F
  addressHighBitsForRom : F
  loadFromRom : F
  loadFromRam : F
  romLoad : Register
  rs2OrLoadAddressLow : F
  rs2OrLoadAddressHigh : F
  rs2OrLoadReadValue : Register
  rdOrStoreIsRegister : F
  rdOrStoreAddressLow : F
  rdOrStoreAddressHigh : F
  rdOrStoreReadValue : Register
  rdOrStoreWriteValue : Register
  rdCandidate : Register
  rdMasked : Register
  bumpPc : BumpPcWitness

namespace LoadStoreWordOnlyRow

/-- The mask of the family is the store flag itself. -/
def isStore (row : LoadStoreWordOnlyRow) : F := row.decoder.circuitFamilyExtraMask

/-- The queries of a row, in the order of their timestamps. -/
def queries (row : LoadStoreWordOnlyRow) : List ShuffleRamMemQuery :=
  [{ isRegister := 1
     addressLow := row.decoder.rs1Index
     addressHigh := 0
     localTimestampInCycle := 0
     readValue := row.rs1
     writeValue := row.rs1 },
    { isRegister := row.isStore
      addressLow := row.rs2OrLoadAddressLow
      addressHigh := row.rs2OrLoadAddressHigh
      localTimestampInCycle := rs2LoadLocalTimestamp
      readValue := row.rs2OrLoadReadValue
      writeValue := row.rs2OrLoadReadValue },
    { isRegister := row.rdOrStoreIsRegister
      addressLow := row.rdOrStoreAddressLow
      addressHigh := row.rdOrStoreAddressHigh
      localTimestampInCycle := rdStoreLocalTimestamp
      readValue := row.rdOrStoreReadValue
      writeValue := row.rdOrStoreWriteValue }]

/-- The constraints and lookups of `apply_word_only_load_store`. -/
structure Satisfied (romBits : Nat) (image : List U32) (row : LoadStoreWordOnlyRow) : Prop where
  mask : (1 - row.isStore) * row.isStore = 0
  address : RegAddAndOverflow row.rs1 row.decoder.imm row.uncleanAddr row.overflow
  separator : (row.uncleanAddr.high, row.isRamRange, row.addressHighBitsForRom) ∈
    createRomSeparatorTable romBits
  storeInRam : row.isStore * (1 - row.isRamRange) = 0
  loadFromRom : (1 - row.isStore) * (1 - row.isRamRange) - row.loadFromRom = 0
  loadFromRam : row.isRamRange * (1 - row.isStore) - row.loadFromRam = 0
  romRead : (65536 * row.addressHighBitsForRom + row.uncleanAddr.low, row.romLoad.low,
    row.romLoad.high) ∈ createTableForRomImage romBits image
  rs2OrLoadAddressLow : row.uncleanAddr.low * (1 - row.isStore) +
    row.decoder.rs2Index * row.isStore - row.rs2OrLoadAddressLow = 0
  rs2OrLoadAddressHigh : row.uncleanAddr.high * (1 - row.isStore) - row.rs2OrLoadAddressHigh = 0
  rdOrStoreIsRegister : 1 - row.isStore - row.rdOrStoreIsRegister = 0
  rdOrStoreAddressLow : row.uncleanAddr.low * row.isStore +
    row.decoder.rdIndex * (1 - row.isStore) - row.rdOrStoreAddressLow = 0
  rdOrStoreAddressHigh : row.uncleanAddr.high * row.isStore - row.rdOrStoreAddressHigh = 0
  rdCandidateLow : row.loadFromRam * row.rs2OrLoadReadValue.low +
    row.loadFromRom * row.romLoad.low - row.rdCandidate.low = 0
  rdCandidateHigh : row.loadFromRam * row.rs2OrLoadReadValue.high +
    row.loadFromRom * row.romLoad.high - row.rdCandidate.high = 0
  rdMaskedLow : row.rdCandidate.low * (1 - row.decoder.rdIsZero) - row.rdMasked.low = 0
  rdMaskedHigh : row.rdCandidate.high * (1 - row.decoder.rdIsZero) - row.rdMasked.high = 0
  loadLow : (row.rdMasked.low - row.rdOrStoreWriteValue.low) * (1 - row.isStore) = 0
  loadHigh : (row.rdMasked.high - row.rdOrStoreWriteValue.high) * (1 - row.isStore) = 0
  storeLow : (row.rs2OrLoadReadValue.low - row.rdOrStoreWriteValue.low) * row.isStore = 0
  storeHigh : (row.rs2OrLoadReadValue.high - row.rdOrStoreWriteValue.high) * row.isStore = 0
  pcStep : BumpPc row.decoder.pc row.pcNext row.bumpPc

end LoadStoreWordOnlyRow

/-! ## Soundness -/

section Soundness

variable {romBits : Nat} {image : List U32} {row : LoadStoreWordOnlyRow}
  {op : LoadStoreWordOnlyOp} {data : ExecutorFamilyDecoderData} {i : Nat}

namespace LoadStoreWordOnlyRow.Satisfied

theorem address_eq (satisfied : row.Satisfied romBits image) (decoder : row.decoder = data.entry i)
    (rs1Range : row.rs1.RangeChecked) :
    row.uncleanAddr = Register.ofU32 (row.rs1.value + data.imm) := by
  have sum := satisfied.address
  rw [decoder, data.entry_imm] at sum
  have value := sum.value_eq rs1Range (Register.rangeChecked_ofU32 _)
  rw [Register.value_ofU32] at value
  rw [sum.range.eq_ofU32, value]

/-- The separator lookup on the address. -/
theorem separator_eq {address : U32} (satisfied : row.Satisfied romBits image)
    (isAddress : row.uncleanAddr = Register.ofU32 address) :
    row.isRamRange = fromBoolean (decide (romBytes romBits ≤ address.toNat)) ∧
      65536 * row.addressHighBitsForRom + row.uncleanAddr.low =
        (romKey romBits address.toNat : F) := by
  have separator := satisfied.separator
  rw [isAddress] at separator ⊢
  exact separator_of_mem separator

/-- The image lookup on the address. -/
theorem romLoad_eq (small : romBits ≤ 14) {address : U32} (satisfied : row.Satisfied romBits image)
    (isAddress : row.uncleanAddr = Register.ofU32 address) :
    address.toNat % 4 = 0 ∧
      (address.toNat < romBytes romBits →
        row.romLoad = Register.ofU32 (image.getD (wordIdx address) unimpOpcode)) := by
  have romRead := satisfied.romRead
  rw [(satisfied.separator_eq isAddress).2] at romRead
  rcases romImage_of_mem small romRead with ⟨aligned, word⟩
  refine ⟨aligned, ?_⟩
  intro inRom
  rw [romKey_eq inRom, ← wordIdx_eq] at word
  exact word

/-- What a load leaves in the candidate for the destination register. -/
theorem rdCandidate_eq (small : romBits ≤ 14) {address : U32}
    (satisfied : row.Satisfied romBits image)
    (isAddress : row.uncleanAddr = Register.ofU32 address) (isLoad : row.isStore = 0)
    (readRange : row.rs2OrLoadReadValue.RangeChecked) :
    row.rdCandidate = Register.ofU32
      (LoadStoreWordOnlyOp.loaded romBits image address row.rs2OrLoadReadValue.value) := by
  have low := satisfied.rdCandidateLow
  have high := satisfied.rdCandidateHigh
  rw [← sub_eq_zero.mp satisfied.loadFromRam, ← sub_eq_zero.mp satisfied.loadFromRom, isLoad,
    (satisfied.separator_eq isAddress).1] at low high
  rw [LoadStoreWordOnlyOp.loaded]
  by_cases inRom : address.toNat < romBytes romBits
  · rw [decide_eq_false (Nat.not_le.mpr inRom), fromBoolean_eq] at low high
    rw [if_pos inRom, ← (satisfied.romLoad_eq small isAddress).2 inRom]
    simp only [Bool.toNat_false, Nat.cast_zero, sub_zero, zero_mul, one_mul, zero_add] at low high
    exact Register.ext (sub_eq_zero.mp low).symm (sub_eq_zero.mp high).symm
  · rw [decide_eq_true (Nat.not_lt.mp inRom), fromBoolean_eq] at low high
    rw [if_neg inRom, ← readRange.eq_ofU32]
    simp only [Bool.toNat_true, Nat.cast_one, sub_zero, sub_self, mul_zero, zero_mul, one_mul,
      add_zero] at low high
    exact Register.ext (sub_eq_zero.mp low).symm (sub_eq_zero.mp high).symm

/-- A store into the ROM does not satisfy the constraints. -/
theorem aboveRom {address : U32} (satisfied : row.Satisfied romBits image)
    (isAddress : row.uncleanAddr = Register.ofU32 address) (isStore : row.isStore = 1) :
    romBytes romBits ≤ address.toNat := by
  have inRam := satisfied.storeInRam
  rw [isStore, one_mul, (satisfied.separator_eq isAddress).1] at inRam
  by_contra below
  rw [decide_eq_false below] at inRam
  exact absurd inRam (by decide)

/-- The accesses of a satisfied row are those of its operation. -/
theorem queries_eq (small : romBits ≤ 14) (satisfied : row.Satisfied romBits image)
    (decoder : row.decoder = data.entry i) (mask : row.isStore = fromBoolean op.isStore)
    (rdIsZero : data.rdIsZero = decide (data.rdIndex = 0)) (rs1Range : row.rs1.RangeChecked)
    (readRange : row.rs2OrLoadReadValue.RangeChecked)
    (oldRange : row.rdOrStoreReadValue.RangeChecked) :
    row.queries = op.queries romBits image data row.rs1.value row.rs2OrLoadReadValue.value
      row.rdOrStoreReadValue.value := by
  have isAddress := satisfied.address_eq decoder rs1Range
  have secondLow := satisfied.rs2OrLoadAddressLow
  have secondHigh := satisfied.rs2OrLoadAddressHigh
  have thirdIsRegister := satisfied.rdOrStoreIsRegister
  have thirdLow := satisfied.rdOrStoreAddressLow
  have thirdHigh := satisfied.rdOrStoreAddressHigh
  cases op with
  | lw =>
      have isLoad : row.isStore = 0 := mask
      have low := satisfied.loadLow
      have high := satisfied.loadHigh
      rw [isLoad, decoder] at thirdLow
      rw [isLoad, isAddress] at secondHigh
      rw [isLoad, isAddress, decoder] at secondLow
      rw [isLoad] at thirdHigh low high thirdIsRegister
      simp only [sub_zero, mul_one, mul_zero, zero_add, add_zero, zero_sub, neg_eq_zero,
        sub_eq_zero] at secondLow secondHigh thirdIsRegister thirdLow thirdHigh low high
      have masked : MaskRd row.rdCandidate (fromBoolean data.rdIsZero) row.rdMasked := by
        have maskedLow := satisfied.rdMaskedLow
        have maskedHigh := satisfied.rdMaskedHigh
        rw [decoder] at maskedLow maskedHigh
        exact ⟨by rw [mul_comm]; exact maskedLow, by rw [mul_comm]; exact maskedHigh⟩
      have written : row.rdOrStoreWriteValue = row.rdMasked :=
        Register.ext low.symm high.symm
      rw [masked.eq, satisfied.rdCandidate_eq small isAddress isLoad readRange, rdIsZero,
        maskRd_ofU32] at written
      simp only [queries, LoadStoreWordOnlyOp.queries, ShuffleRamMemQuery.registerAccess,
        ShuffleRamMemQuery.ramAccess, isLoad, decoder, written, ← secondLow, ← secondHigh,
        ← thirdIsRegister, ← thirdLow, thirdHigh, ← rs1Range.eq_ofU32, ← readRange.eq_ofU32,
        ← oldRange.eq_ofU32]
      rfl
  | sw =>
      have isStore : row.isStore = 1 := mask
      have low := satisfied.storeLow
      have high := satisfied.storeHigh
      rw [isStore, isAddress] at thirdLow thirdHigh
      rw [isStore] at secondHigh low high thirdIsRegister
      rw [isStore, decoder] at secondLow
      simp only [sub_self, mul_one, mul_zero, zero_add, add_zero, zero_sub, neg_eq_zero,
        sub_eq_zero] at secondLow secondHigh thirdIsRegister thirdLow thirdHigh low high
      have written : row.rdOrStoreWriteValue = row.rs2OrLoadReadValue :=
        Register.ext low.symm high.symm
      simp only [queries, LoadStoreWordOnlyOp.queries, ShuffleRamMemQuery.registerAccess,
        ShuffleRamMemQuery.ramAccess, isStore, decoder, written, ← secondLow, secondHigh,
        thirdIsRegister, ← thirdLow, ← thirdHigh, ← rs1Range.eq_ofU32, ← readRange.eq_ofU32,
        ← oldRange.eq_ofU32]
      rfl

end LoadStoreWordOnlyRow.Satisfied

end Soundness

/-! ## Completeness -/

section Completeness

variable {romBits : Nat} {image : List U32} {data : ExecutorFamilyDecoderData} {i : Nat}

/-- The assignment for given operands, up to the overflow of the address. -/
def LoadStoreWordOnlyOp.honestRow (op : LoadStoreWordOnlyOp) (romBits : Nat) (image : List U32)
    (data : ExecutorFamilyDecoderData) (i : Nat) (rs1 second old : U32) (overflow : F)
    (bumpPc : BumpPcWitness) : LoadStoreWordOnlyRow :=
  let address := rs1 + data.imm
  let limbs := Register.ofU32 address
  let isStore := fromBoolean op.isStore
  let isRam := fromBoolean (decide (romBytes romBits ≤ address.toNat))
  let candidate :=
    if op.isStore then Register.ofU32 0
    else Register.ofU32 (loaded romBits image address second)
  let masked := if data.rdIsZero then Register.ofU32 0 else candidate
  { decoder := data.entry i
    pcNext := Register.ofU32 (BitVec.ofNat 32 (4 * i) + 4)
    rs1 := Register.ofU32 rs1
    uncleanAddr := limbs
    overflow := overflow
    isRamRange := isRam
    addressHighBitsForRom := ((limbs.high.val % 2 ^ romBits : Nat) : F)
    loadFromRom := (1 - isStore) * (1 - isRam)
    loadFromRam := isRam * (1 - isStore)
    romLoad := Register.ofU32 (image.getD (romKey romBits address.toNat / 4) unimpOpcode)
    rs2OrLoadAddressLow := if op.isStore then (data.rs2Index.toNat : F) else limbs.low
    rs2OrLoadAddressHigh := if op.isStore then 0 else limbs.high
    rs2OrLoadReadValue := Register.ofU32 second
    rdOrStoreIsRegister := 1 - isStore
    rdOrStoreAddressLow := if op.isStore then limbs.low else (data.rdIndex.toNat : F)
    rdOrStoreAddressHigh := if op.isStore then limbs.high else 0
    rdOrStoreReadValue := Register.ofU32 old
    rdOrStoreWriteValue := if op.isStore then Register.ofU32 second else masked
    rdCandidate := candidate
    rdMasked := masked
    bumpPc := bumpPc }

theorem fromBoolean_mul_add (isRam : Bool) (x y : F) :
    fromBoolean isRam * x + (1 - fromBoolean isRam) * y = if isRam then x else y := by
  cases isRam with
  | false => simp
  | true => simp

/-- The candidate for the destination register satisfies its constraint on either limb. -/
theorem LoadStoreWordOnlyOp.honestRow_candidate (op : LoadStoreWordOnlyOp) {rs1 second : U32}
    (old : U32) (overflow : F) (bumpPc : BumpPcWitness) (limb : Register → F)
    (zero : limb (Register.ofU32 0) = 0) :
    let row := op.honestRow romBits image data i rs1 second old overflow bumpPc
    row.loadFromRam * limb row.rs2OrLoadReadValue + row.loadFromRom * limb row.romLoad -
      limb row.rdCandidate = 0 := by
  cases op with
  | lw =>
      simp only [honestRow, isStore, loaded, fromBoolean_false, sub_zero, mul_one, one_mul,
        Bool.false_eq_true, if_false, fromBoolean_mul_add, decide_eq_true_eq]
      by_cases inRom : (rs1 + data.imm).toNat < romBytes romBits
      · rw [if_neg (Nat.not_le.mpr inRom), if_pos inRom, romKey_eq inRom, ← wordIdx_eq, sub_self]
      · rw [if_pos (Nat.not_lt.mp inRom), if_neg inRom, sub_self]
  | sw =>
      simp only [honestRow, isStore, fromBoolean_true, sub_self, mul_zero, zero_mul, add_zero,
        if_true, zero]

/-- Operands whose address is aligned, and above the ROM for a store, have a satisfying row. -/
theorem LoadStoreWordOnlyOp.exists_row (op : LoadStoreWordOnlyOp) {rs1 second : U32} (old : U32)
    (mask : (data.entry i).circuitFamilyExtraMask = fromBoolean op.isStore)
    (aligned : (rs1 + data.imm).toNat % 4 = 0)
    (aboveRom : op = sw → romBytes romBits ≤ (rs1 + data.imm).toNat) :
    ∃ row : LoadStoreWordOnlyRow, row.Satisfied romBits image ∧ row.decoder = data.entry i ∧
      row.rs1 = Register.ofU32 rs1 ∧ row.rs2OrLoadReadValue = Register.ofU32 second ∧
      row.rdOrStoreReadValue = Register.ofU32 old := by
  have pcAligned := toNat_pc_mod i
  rcases exists_bumpPc (BitVec.ofNat 32 (4 * i)) pcAligned with ⟨bumpPc, pcStep⟩
  rcases exists_regAddAndOverflow rs1 data.imm with ⟨overflow, sum⟩
  refine ⟨op.honestRow romBits image data i rs1 second old overflow bumpPc, ?_, rfl, rfl, rfl,
    rfl⟩
  have flag : (op.honestRow romBits image data i rs1 second old overflow bumpPc).isStore =
      fromBoolean op.isStore := mask
  have romRead := @mem_romImage romBits image (rs1 + data.imm).toNat aligned
  constructor
  · rw [flag]
    cases op <;> decide
  · exact sum
  · simp only [honestRow]
    rw [← decide_eq_decide.mpr (romBytes_le_iff romBits _)]
    exact mem_romSeparatorTable.mpr ⟨(Register.rangeChecked_ofU32 _).2, rfl, rfl⟩
  · rw [flag]
    simp only [honestRow]
    cases op with
    | lw => exact zero_mul _
    | sw =>
        rw [decide_eq_true (aboveRom rfl)]
        decide
  · rw [flag]
    exact sub_self _
  · rw [flag]
    exact sub_self _
  · have key : 65536 * (((Register.ofU32 (rs1 + data.imm)).high.val % 2 ^ romBits : Nat) : F) +
        (Register.ofU32 (rs1 + data.imm)).low = (romKey romBits (rs1 + data.imm).toNat : F) := by
      rw [Register.val_high_ofU32, romKey, ← Register.val_low_ofU32, Nat.cast_add,
        ZMod.natCast_zmod_val]
      push_cast
      rfl
    simp only [honestRow, key]
    exact romRead
  · rw [flag]
    cases op <;> simp [honestRow, isStore, fromBoolean, ExecutorFamilyDecoderData.entry]
  · rw [flag]
    cases op <;> simp [honestRow, isStore, fromBoolean]
  · rw [flag]
    exact sub_self _
  · rw [flag]
    cases op <;> simp [honestRow, isStore, fromBoolean, ExecutorFamilyDecoderData.entry]
  · rw [flag]
    cases op <;> simp [honestRow, isStore, fromBoolean]
  · exact op.honestRow_candidate old overflow bumpPc Register.low rfl
  · exact op.honestRow_candidate old overflow bumpPc Register.high rfl
  · rw [mul_comm]
    exact (maskRd_select _ data.rdIsZero).low
  · rw [mul_comm]
    exact (maskRd_select _ data.rdIsZero).high
  · rw [flag]
    cases op <;> simp [honestRow, isStore, fromBoolean]
  · rw [flag]
    cases op <;> simp [honestRow, isStore, fromBoolean]
  · rw [flag]
    cases op <;> simp [honestRow, isStore, fromBoolean]
  · rw [flag]
    cases op <;> simp [honestRow, isStore, fromBoolean]
  · simp only [honestRow, data.entry_pc]
    exact pcStep

end Completeness

/-! ## The executor -/

section Executor

open Vm Bigint

variable {C : Type} [Counters C] {romBits : Nat} {ND : Type} [NonDeterminismCSRSource ND]
  [Ruint] {image : List U32} {data : ExecutorFamilyDecoderData}
  {machine machine' : Machine C romBits ND} {events : List SnapshotEvent}

/-- What a step of the executor does to the words that the queries are about.  The RAM query of a
load from the ROM is not the executor's: it reads the zero that the ROM range is initialised
with. -/
def LoadStoreWordOnlyOp.Performed (op : LoadStoreWordOnlyOp) (image : List U32)
    (data : ExecutorFamilyDecoderData) (machine machine' : Machine C romBits ND)
    (second old : U32) : Prop :=
  let address := (machine.state.registers data.rs1Index).value + data.imm
  let slot := wordIdx address
  match op with
  | lw =>
      second =
          (if address.toNat < romBytes romBits then 0 else (machine.ram.backing slot).value) ∧
        old = (machine.state.registers data.rdIndex).value ∧
        (machine'.state.registers data.rdIndex).value =
          State.maskRd data.rdIndex (loaded romBits image address second)
  | sw =>
      second = (machine.state.registers data.rs2Index).value ∧
        old = (machine.ram.backing slot).value ∧
        (machine'.ram.backing slot).value = second

/-- A load or a store that does not panic is aligned, stores above the ROM, and performs the
queries of its operation. -/
theorem LoadStoreWordOnlyOp.execute_performed (op : LoadStoreWordOnlyOp)
    (full : image.length = romWords romBits) (holds : machine.ram.HoldsRom image)
    (executed : execute machine (data.instruction op.name) = some (machine', events)) :
    let address := (machine.state.registers data.rs1Index).value + data.imm
    address.toNat % 4 = 0 ∧ (op = sw → romBytes romBits ≤ address.toNat) ∧
      machine'.state.pc = machine.state.pc + 4 ∧
      ∃ second old, op.Performed image data machine machine' second old := by
  generalize isAddress : (machine.state.registers data.rs1Index).value + data.imm = address
  rw [execute_eq] at executed
  cases op with
  | lw =>
      simp only [ExecutorFamilyDecoderData.instruction, name, opcodeOf, Option.bind_some,
        executeOpcode, Machine.onMemory, Option.map_eq_some_iff, Prod.exists,
        Prod.mk.injEq] at executed
      rcases executed with ⟨state', ram', _, loadedWord, rfl, _⟩
      have aligned := loadOp_aligned loadedWord
      rcases loadOp_eq_some loadedWord with ⟨readTimestamp, word, _, found, _, _, rfl⟩
      simp only [isAddress] at aligned found
      rw [alignedAddress_of_mod_four aligned] at found
      have value : loaded romBits image address
          (if address.toNat < romBytes romBits then 0
            else (machine.ram.backing (wordIdx address)).value) = word := by
        rw [loaded]
        by_cases inRom : address.toNat < romBytes romBits
        · rw [if_pos inRom, holds.getD full (wordIdx_lt_romWords inRom), found]
        · rw [if_neg inRom, if_neg inRom, found]
      refine ⟨toNat_mod_four aligned, ?_, rfl, _, _, rfl, rfl, ?_⟩
      · intro store
        cases store
      rw [isAddress, value]
      exact State.writeRegister_value_self 2 data.rdIndex word _
  | sw =>
      simp only [ExecutorFamilyDecoderData.instruction, name, opcodeOf, Option.bind_some,
        executeOpcode, Machine.onMemory, Option.map_eq_some_iff, Prod.exists,
        Prod.mk.injEq] at executed
      rcases executed with ⟨state', ram', _, stored, rfl, _⟩
      have aligned := storeOp_aligned stored
      rcases storeOp_eq_some stored with
        ⟨readTimestamp, oldValue, word, merged, _, aboveRom, _, rfl, _, rfl⟩
      simp only [isAddress] at aligned aboveRom
      rw [alignedAddress_of_mod_four aligned] at aboveRom
      have alignedNat := toNat_mod_four aligned
      refine ⟨alignedNat, fun _ => romBytes_le_of_slot alignedNat aboveRom, rfl, _, _, rfl, rfl,
        ?_⟩
      simp only [isAddress, alignedAddress_of_mod_four aligned,
        RamWithRomRegion.setSlot_backing, Function.update_self]
      exact (Option.some.inj merged).symm

end Executor

/-! ## The circuit is exact -/

section Exact

open Vm Bigint

variable {supportedCsrs : List U16} {i : Nat} {opcode : U32} {entry : DecoderTableEntry}
  {romBits : Nat} {image : List U32} {C : Type} [Counters C] {ND : Type}
  [NonDeterminismCSRSource ND]

theorem exists_loadStoreWordOnlyOp
    (produced : preprocessOpcode .wordOnlyMemoryFamilyDecoder supportedCsrs i opcode =
      some (some entry)) :
    ∃ op : LoadStoreWordOnlyOp, op.arm.Covers opcode ∧
      entry = (op.arm.decoded opcode).entry i := by
  rcases preprocessOpcode_eq_some produced with ⟨arm, member, covers, rfl, _⟩
  rw [OpcodeFamilyDecoder.arms, LoadStoreWordOnlyOp.arms_eq] at member
  rcases List.mem_map.mp member with ⟨op, _, rfl⟩
  exact ⟨op, covers, rfl⟩

/-- The word memory circuit is exact.  A row of its decoder belongs to `LW` or `SW`.  Every
satisfying assignment over register and memory values of two limbs has an aligned address, above
the ROM for a store, makes exactly the accesses of its operation and moves to the next word.
Every step of the executor over the ROM image has a satisfying assignment whose accesses are the
words that the step reads and writes.  The addresses of the ROM fit the field, and for the
executor the image fills the ROM, as the setup asserts. -/
theorem loadStoreWordOnly_exact [Ruint] (small : romBits ≤ 14)
    (produced : preprocessOpcode .wordOnlyMemoryFamilyDecoder supportedCsrs i opcode =
      some (some entry)) :
    ∃ op : LoadStoreWordOnlyOp, op.arm.Covers opcode ∧
      (∀ row : LoadStoreWordOnlyRow, row.Satisfied romBits image → row.decoder = entry →
        row.rs1.RangeChecked → row.rs2OrLoadReadValue.RangeChecked →
        row.rdOrStoreReadValue.RangeChecked →
        let data := op.arm.decoded opcode
        let address := row.rs1.value + data.imm
        address.toNat % 4 = 0 ∧ (op = .sw → romBytes romBits ≤ address.toNat) ∧
          row.queries = op.queries romBits image data row.rs1.value
            row.rs2OrLoadReadValue.value row.rdOrStoreReadValue.value ∧
          row.pcNext.RangeChecked ∧ row.pcNext.value = BitVec.ofNat 32 (4 * i) + 4) ∧
      ∀ (machine machine' : Machine C romBits ND) (events : List SnapshotEvent),
        machine.state.pc = BitVec.ofNat 32 (4 * i) →
        image.length = romWords romBits → machine.ram.HoldsRom image →
        execute machine ((op.arm.decoded opcode).instruction op.name) =
          some (machine', events) →
        ∃ (row : LoadStoreWordOnlyRow) (second old : U32),
          row.Satisfied romBits image ∧ row.decoder = entry ∧ row.rs1.RangeChecked ∧
            row.rs2OrLoadReadValue.RangeChecked ∧ row.rdOrStoreReadValue.RangeChecked ∧
            row.queries = op.queries romBits image (op.arm.decoded opcode)
              (machine.state.registers (op.arm.decoded opcode).rs1Index).value second old ∧
            op.Performed image (op.arm.decoded opcode) machine machine' second old ∧
            row.pcNext.value = machine'.state.pc := by
  rcases exists_loadStoreWordOnlyOp produced with ⟨op, covers, rfl⟩
  have mask : ((op.arm.decoded opcode).entry i).circuitFamilyExtraMask =
      fromBoolean op.isStore := by
    cases op with
    | lw => rfl
    | sw => rfl
  have rdIsZero : (op.arm.decoded opcode).rdIsZero =
      decide ((op.arm.decoded opcode).rdIndex = 0) := rfl
  refine ⟨op, covers, ?_⟩
  generalize op.arm.decoded opcode = data at mask rdIsZero ⊢
  have sound (row : LoadStoreWordOnlyRow) (satisfied : row.Satisfied romBits image)
      (decoder : row.decoder = data.entry i) (rs1Range : row.rs1.RangeChecked)
      (readRange : row.rs2OrLoadReadValue.RangeChecked)
      (oldRange : row.rdOrStoreReadValue.RangeChecked) :
      (row.rs1.value + data.imm).toNat % 4 = 0 ∧
        (op = .sw → romBytes romBits ≤ (row.rs1.value + data.imm).toNat) ∧
        row.queries = op.queries romBits image data row.rs1.value
          row.rs2OrLoadReadValue.value row.rdOrStoreReadValue.value ∧
        row.pcNext.RangeChecked ∧ row.pcNext.value = BitVec.ofNat 32 (4 * i) + 4 := by
    have isStore : row.isStore = fromBoolean op.isStore := by
      rw [LoadStoreWordOnlyRow.isStore, decoder, mask]
    have isAddress := satisfied.address_eq decoder rs1Range
    have step := satisfied.pcStep
    rw [decoder, data.entry_pc] at step
    have next := step.value_eq (Register.rangeChecked_ofU32 _) (by
      rw [Register.value_ofU32]
      exact toNat_pc_mod i)
    rw [Register.value_ofU32] at next
    refine ⟨(satisfied.romLoad_eq small isAddress).1, ?_, ?_, next.1, next.2⟩
    · rintro rfl
      exact satisfied.aboveRom isAddress isStore
    · exact satisfied.queries_eq small decoder isStore rdIsZero rs1Range readRange oldRange
  refine ⟨sound, ?_⟩
  intro machine machine' events atPc full holds executed
  rcases op.execute_performed full holds executed with
    ⟨aligned, aboveRom, moved, second, old, performed⟩
  rcases @LoadStoreWordOnlyOp.exists_row romBits image data i op _ second old mask aligned
    aboveRom with
    ⟨row, satisfied, decoder, rs1, secondRead, oldRead⟩
  have rs1Range : row.rs1.RangeChecked := rs1 ▸ Register.rangeChecked_ofU32 _
  have readRange : row.rs2OrLoadReadValue.RangeChecked :=
    secondRead ▸ Register.rangeChecked_ofU32 _
  have oldRange : row.rdOrStoreReadValue.RangeChecked := oldRead ▸ Register.rangeChecked_ofU32 _
  rcases sound row satisfied decoder rs1Range readRange oldRange with
    ⟨_, _, queries, _, pcNext⟩
  refine ⟨row, second, old, satisfied, decoder, rs1Range, readRange, oldRange, ?_, performed, ?_⟩
  · rw [queries, rs1, secondRead, oldRead, Register.value_ofU32, Register.value_ofU32,
      Register.value_ofU32]
  · rw [pcNext, moved, atPc]

/-- A machine whose ROM holds the image and whose RAM holds one word after it. -/
def wordMachine : Machine DelegationsCounters romSecondWordBits Unit where
  state := { State.initialWithCounters .zero with registers := fun _ => ⟨0, 0x400004⟩ }
  ram := ⟨fun index => if index < 2 ^ 20 then ⟨0, 7⟩ else ⟨0, 0xffff0000⟩, 2 ^ 21⟩
  nd := ()

/-- `LW` from the RAM word after the ROM. -/
theorem loadStoreWordOnly_exact_lw :
    ∃ row : LoadStoreWordOnlyRow, row.Satisfied romSecondWordBits (List.replicate (2 ^ 20) 7) ∧
      (∃ query ∈ row.queries,
        query = .registerAccess rdStoreLocalTimestamp 2 0x400004 0xffff0000) ∧
      row.pcNext.value = 4 := by
  have produced : preprocessOpcode .wordOnlyMemoryFamilyDecoder [] 0 0x0000a103 =
      some (some ((LoadStoreWordOnlyOp.lw.arm.decoded 0x0000a103).entry 0)) := by decide
  have full : (List.replicate (2 ^ 20) (7 : U32)).length =
      romWords romSecondWordBits := List.length_replicate
  have holds : wordMachine.ram.HoldsRom (List.replicate (2 ^ 20) 7) := by
    intro index word inRom found
    rcases List.getElem?_eq_some_iff.mp found with ⟨bound, isWord⟩
    rw [List.getElem_replicate] at isWord
    rw [← isWord]
    exact congrArg Airbender.Register.value (if_pos inRom)
  rcases @loadStoreWordOnly_exact [] 0 0x0000a103 _ romSecondWordBits _ DelegationsCounters _ Unit _ _
    (by decide) produced with ⟨op, covers, _, complete⟩
  have isLw : op = .lw := by
    cases op <;> first | rfl | exact absurd covers (by decide)
  subst isLw
  have succeeds : (execute wordMachine
      ((LoadStoreWordOnlyOp.lw.arm.decoded 0x0000a103).instruction .lw)).isSome = true := by
    decide +kernel
  rcases Option.isSome_iff_exists.mp succeeds with ⟨⟨machine', events⟩, executed⟩
  rcases complete wordMachine machine' events rfl full holds executed with
    ⟨row, second, old, satisfied, _, _, _, _, queries, ⟨isSecond, isOld, _⟩, pcNext⟩
  refine ⟨row, satisfied, ?_, ?_⟩
  · rw [queries, isSecond, isOld]
    exact ⟨_, List.mem_cons_of_mem _ (List.mem_cons_of_mem _ List.mem_cons_self),
      by decide +kernel⟩
  · rcases LoadStoreWordOnlyOp.execute_performed .lw full holds executed with ⟨_, _, moved, _⟩
    rw [pcNext, moved]
    rfl

end Exact

end Airbender.Circuit
