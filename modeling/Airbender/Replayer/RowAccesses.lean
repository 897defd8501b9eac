import Airbender.Ir.Canonical
import Airbender.Replayer.Simulation

/-!
# The memory accesses of a row

A row of the replay describes accesses to registers and to RAM words: what each of them found and
what it left.  The accesses of the row of an instruction turn the registers and the RAM before it
into those after it.
-/

namespace Airbender

open OfflineMemory

/-! ## Cells -/

/-- A register, or the RAM word of a slot. -/
inductive MemoryCell where
  | register (index : RegisterIndex)
  | word (slot : Nat)
deriving DecidableEq, Repr

/-- What the memory argument knows of a cell: the limbs of its time, and its value. -/
abbrev CellContent := TimestampData × U32

abbrev MemoryAccess := Access MemoryCell CellContent

def Register.content (register : Register) : CellContent :=
  (.fromScalar register.timestamp, register.value)

/-- The ROM words count as zero. -/
def wordContent (romBits slot : Nat) (register : Register) : CellContent :=
  if slot < romWords romBits then (.fromScalar register.timestamp, 0) else register.content

/-- The registers and the RAM as the memory argument sees them. -/
def memoryOf {C : Type} {romBits : Nat} (state : State C) (ram : RamWithRomRegion romBits) :
    MemoryCell → CellContent
  | .register index => (state.registers index).content
  | .word slot => wordContent romBits slot (ram.backing slot)

section Updates

variable {C : Type} {romBits : Nat} (state : State C) (ram : RamWithRomRegion romBits)

theorem memoryOf_setRegister (index : RegisterIndex) (register : Register) :
    memoryOf (state.setRegister index register) ram =
      Function.update (memoryOf state ram) (.register index) register.content := by
  funext cell
  cases cell with
  | register other =>
      by_cases same : other = index
      · rw [same, Function.update_self]
        simp only [memoryOf, State.setRegister_registers, Function.update_self]
      · rw [Function.update_of_ne fun equal => same (MemoryCell.register.inj equal)]
        simp only [memoryOf, State.setRegister_registers, Function.update_of_ne same]
  | word slot => rw [Function.update_of_ne (by simp), memoryOf, memoryOf]

theorem memoryOf_setSlot (slot : Nat) (register : Register) :
    memoryOf state (ram.setSlot slot register) =
      Function.update (memoryOf state ram) (.word slot) (wordContent romBits slot register) := by
  funext cell
  cases cell with
  | register index => rw [Function.update_of_ne (by simp), memoryOf, memoryOf]
  | word other =>
      by_cases same : other = slot
      · rw [same, Function.update_self]
        simp only [memoryOf, RamWithRomRegion.setSlot_backing, Function.update_self]
      · rw [Function.update_of_ne fun equal => same (MemoryCell.word.inj equal)]
        simp only [memoryOf, RamWithRomRegion.setSlot_backing, Function.update_of_ne same]

/-- The counters, the time and the program counter are not memory. -/
theorem memoryOf_congr {state state' : State C} (same : state'.registers = state.registers) :
    memoryOf state' ram = memoryOf state ram := by
  funext cell
  cases cell with
  | register index => rw [memoryOf, memoryOf, same]
  | word slot => rfl

theorem wordContent_of_above {slot : Nat} (above : romWords romBits ≤ slot)
    (register : Register) : wordContent romBits slot register = register.content :=
  if_neg (Nat.not_lt.mpr above)

/-- A read of a word as its witness has it. -/
theorem wordContent_wordIdx (address : U32) (register : Register) :
    wordContent romBits (wordIdx address) register =
      (.fromScalar register.timestamp,
        ReplayerRam.maskReadForWitness romBits address register.value) := by
  have slot : wordIdx address = address.toNat / 4 := BitVec.toNat_udiv
  have bytes : romBytes romBits = 4 * 2 ^ (14 + romBits) := by
    rw [romBytes, Nat.one_shiftLeft, show 16 + romBits = 2 + (14 + romBits) by omega, Nat.pow_add]
  have words : romWords romBits = 2 ^ (14 + romBits) := by
    rw [romWords, bytes, Nat.mul_div_cancel_left _ (by decide)]
  rw [wordContent, ReplayerRam.maskReadForWitness, slot, words, bytes]
  generalize 2 ^ (14 + romBits) = bound
  by_cases below : address.toNat < 4 * bound
  · rw [if_pos (by omega), if_pos below]
  · rw [if_neg (by omega), if_neg below]
    rfl

/-- The word around an address. -/
theorem wordIdx_alignedAddress (address : U32) :
    wordIdx (Vm.alignedAddress address) = wordIdx address := by
  have shifted : Vm.alignedAddress address >>> 2 = address >>> 2 := by
    apply BitVec.eq_of_getLsbD_eq
    intro i bound
    have high : (3 : U32).getLsbD (2 + i) = false := by
      apply Nat.testBit_lt_two_pow
      exact Nat.lt_of_lt_of_le (show 3 < 2 ^ 2 by decide)
        (Nat.pow_le_pow_right (by decide) (by omega))
    rw [Vm.alignedAddress, BitVec.getLsbD_ushiftRight, BitVec.getLsbD_ushiftRight,
      BitVec.getLsbD_and, BitVec.getLsbD_not, high]
    by_cases inside : 2 + i < 32
    · rw [decide_eq_true inside, Bool.not_false, Bool.and_true, Bool.and_true]
    · rw [BitVec.getLsbD_of_ge address (2 + i) (Nat.not_lt.mp inside), Bool.false_and]
  have quotients := congrArg BitVec.toNat shifted
  rw [BitVec.toNat_ushiftRight, BitVec.toNat_ushiftRight, Nat.shiftRight_eq_div_pow,
    Nat.shiftRight_eq_div_pow] at quotients
  have four : (4 : U32).toNat = 2 ^ 2 := rfl
  rw [wordIdx, wordIdx, BitVec.toNat_udiv, BitVec.toNat_udiv, four, quotients]

end Updates

/-! ## Times -/

namespace TimestampData

theorem fromScalar_asScalar (data : TimestampData) : fromScalar data.asScalar = data := by
  rcases data with ⟨l0, l1, l2⟩
  have first : (asScalar ⟨l0, l1, l2⟩).setWidth 16 = l0 := by
    apply BitVec.eq_of_getLsbD_eq
    intro i bound
    have low : i < 16 ∧ i < 32 ∧ i < 64 := by omega
    simp [asScalar, low]
  have second : (asScalar ⟨l0, l1, l2⟩ >>> 16).setWidth 16 = l1 := by
    apply BitVec.eq_of_getLsbD_eq
    intro i bound
    have middle : 16 + i < 32 ∧ 16 + i < 64 := by omega
    simp [asScalar, bound, middle]
  have third : (asScalar ⟨l0, l1, l2⟩ >>> 32).setWidth 16 = l2 := by
    apply BitVec.eq_of_getLsbD_eq
    intro i bound
    have high : 32 + i < 64 := by omega
    have pastFirst : l0.getLsbD (32 + i) = false := BitVec.getLsbD_of_ge _ _ (by omega)
    have pastSecond : l1.getLsbD (32 + i - 16) = false := BitVec.getLsbD_of_ge _ _ (by omega)
    simp [asScalar, bound, high, pastFirst, pastSecond]
  simp only [fromScalar, first, second, third]

theorem fromScalar_or (first second : TimestampScalar) :
    fromScalar (first ||| second) =
      ⟨(fromScalar first).l0 ||| (fromScalar second).l0,
        (fromScalar first).l1 ||| (fromScalar second).l1,
        (fromScalar first).l2 ||| (fromScalar second).l2⟩ := by
  simp only [fromScalar, BitVec.setWidth_or, BitVec.ushiftRight_or_distrib]

/-- The time of a row moved by an offset. -/
def plusOffset (offset : TimestampScalar) (data : TimestampData) : TimestampData :=
  fromScalar (data.asScalar ||| offset)

@[simp]
theorem plusOffset_fromScalar (offset timestamp : TimestampScalar) :
    (fromScalar timestamp).plusOffset offset = fromScalar (timestamp ||| offset) := by
  rw [plusOffset, fromScalar_or, fromScalar_or, fromScalar_asScalar]

/-- The limbs hold every time below 2 ^ 48. -/
theorem asScalar_fromScalar {timestamp : TimestampScalar} (small : timestamp.toNat < 2 ^ 48) :
    (fromScalar timestamp).asScalar = timestamp := by
  apply BitVec.eq_of_getLsbD_eq
  intro i bound
  simp only [fromScalar, asScalar, BitVec.getLsbD_or, BitVec.getLsbD_shiftLeft,
    BitVec.getLsbD_setWidth, BitVec.getLsbD_ushiftRight]
  rcases Nat.lt_or_ge i 48 with low | high
  · rcases Nat.lt_or_ge i 16 with first | past
    · simp [bound, first, show i < 32 by omega]
    · rcases Nat.lt_or_ge i 32 with second | third
      · have inLimb : i - 16 < 16 ∧ i - 16 < 64 := by omega
        simp [bound, inLimb, second, Nat.not_lt.mpr past, Nat.add_sub_cancel' past]
      · have inLimb : i - 32 < 16 ∧ i - 32 < 64 := by omega
        have pastSecond : ¬ i - 16 < 16 := by omega
        simp [bound, inLimb, pastSecond, Nat.not_lt.mpr past, Nat.not_lt.mpr third,
          Nat.add_sub_cancel' third]
  · have zero : timestamp.getLsbD i = false :=
      Nat.testBit_lt_two_pow (Nat.lt_of_lt_of_le small (Nat.pow_le_pow_right (by decide) high))
    have pastLimbs : ¬ i < 16 ∧ ¬ i - 16 < 16 ∧ ¬ i - 32 < 16 := by omega
    simp [zero, pastLimbs]

end TimestampData

/-- The time of a cell, which the limbs hold below 2 ^ 48. -/
def cellTime (content : CellContent) : Nat := content.1.asScalar.toNat

theorem cellTime_fromScalar {timestamp : TimestampScalar} (small : timestamp.toNat < 2 ^ 48)
    (value : U32) : cellTime (.fromScalar timestamp, value) = timestamp.toNat :=
  congrArg BitVec.toNat (TimestampData.asScalar_fromScalar small)

/-! ## Accesses of rows -/

/-- An access at an offset in the cycle of a row. -/
def rowAccess (cell : MemoryCell) (readTimestamp : TimestampData) (readValue : U32)
    (writeTimestamp : TimestampData) (writeValue : U32) : MemoryAccess where
  cell := cell
  before := (readTimestamp, readValue)
  after := (writeTimestamp, writeValue)

/-- The three register accesses of a row, at the registers that its instruction names. -/
def NonMemoryOpcodeTracingDataWithTimestamp.accesses
    (row : NonMemoryOpcodeTracingDataWithTimestamp) (rs1 rs2 rd : RegisterIndex) :
    List MemoryAccess :=
  let data := row.opcodeData
  let time (offset : TimestampScalar) := row.cycleTimestamp.plusOffset offset
  [rowAccess (.register rs1) row.rs1ReadTimestamp data.rs1Value (time 0) data.rs1Value,
    rowAccess (.register rs2) row.rs2ReadTimestamp data.rs2Value (time 1) data.rs2Value,
    rowAccess (.register rd) row.rdReadTimestamp data.rdOldValue (time 2) data.rdValue]

def MemoryOpcodeTracingDataWithTimestamp.initialPc
    (row : MemoryOpcodeTracingDataWithTimestamp) : U32 :=
  match row.opcodeData with
  | .load data => data.initialPc
  | .store data => data.initialPc

/-- A load reads a RAM word in place of the second register, a store writes one in place of the
target. -/
def MemoryOpcodeTracingDataWithTimestamp.accesses
    (row : MemoryOpcodeTracingDataWithTimestamp) (rs1 rs2 rd : RegisterIndex) :
    List MemoryAccess :=
  let time (offset : TimestampScalar) := row.cycleTimestamp.plusOffset offset
  match row.opcodeData with
  | .load data =>
      [rowAccess (.register rs1) row.rs1ReadTimestamp data.rs1Value (time 0) data.rs1Value,
        rowAccess (.word (wordIdx data.alignedRamAddress)) row.rs2OrRamReadTimestamp
          data.alignedRamReadValue (time 1) data.alignedRamReadValue,
        rowAccess (.register rd) row.rdOrRamReadTimestamp data.rdOldValue (time 2) data.rdValue]
  | .store data =>
      [rowAccess (.register rs1) row.rs1ReadTimestamp data.rs1Value (time 0) data.rs1Value,
        rowAccess (.register rs2) row.rs2OrRamReadTimestamp data.rs2Value (time 1) data.rs2Value,
        rowAccess (.word (wordIdx data.alignedRamAddress)) row.rdOrRamReadTimestamp
          data.alignedRamOldValue (time 2) data.alignedRamWriteValue]

section Times

variable {timestamp : TimestampScalar}

/-- The time of an access at an offset in the cycle. -/
theorem cellTime_plusOffset (aligned : timestamp.toNat % 4 = 0)
    (fits : timestamp.toNat + 4 ≤ 2 ^ 48) {offset : TimestampScalar} (inCycle : offset.toNat < 4)
    (value : U32) :
    cellTime ((TimestampData.fromScalar timestamp).plusOffset offset, value) =
      timestamp.toNat + offset.toNat := by
  have sum := or_offset_toNat aligned inCycle
  rw [TimestampData.plusOffset_fromScalar, cellTime_fromScalar (by omega), sum]

/-- The three accesses of a cycle are one after the other. -/
theorem ordered_cycle (aligned : timestamp.toNat % 4 = 0) (fits : timestamp.toNat + 4 ≤ 2 ^ 48)
    {first second third : MemoryAccess}
    (firstTime : first.after.1 = (TimestampData.fromScalar timestamp).plusOffset 0)
    (secondTime : second.after.1 = (TimestampData.fromScalar timestamp).plusOffset 1)
    (thirdTime : third.after.1 = (TimestampData.fromScalar timestamp).plusOffset 2) :
    Ordered cellTime timestamp.toNat (timestamp.toNat + 4) [first, second, third] := by
  have start : cellTime first.after = timestamp.toNat + 0 := by
    rw [← Prod.eta first.after, firstTime, cellTime_plusOffset aligned fits (by decide)]
    rfl
  have middle : cellTime second.after = timestamp.toNat + 1 := by
    rw [← Prod.eta second.after, secondTime, cellTime_plusOffset aligned fits (by decide)]
    rfl
  have last : cellTime third.after = timestamp.toNat + 2 := by
    rw [← Prod.eta third.after, thirdTime, cellTime_plusOffset aligned fits (by decide)]
    rfl
  refine ⟨?_, ?_⟩
  · simp only [List.pairwise_cons, List.mem_cons, List.not_mem_nil, or_false, forall_eq_or_imp,
      forall_eq, IsEmpty.forall_iff, implies_true, List.Pairwise.nil, and_true, start, middle, last]
    omega
  · simp only [List.mem_cons, List.not_mem_nil, or_false, forall_eq_or_imp, forall_eq, start,
      middle, last]
    omega

/-- The accesses of a row of a cycle are inside the cycle. -/
theorem NonMemoryOpcodeTracingDataWithTimestamp.ordered
    {row : NonMemoryOpcodeTracingDataWithTimestamp} (aligned : timestamp.toNat % 4 = 0)
    (fits : timestamp.toNat + 4 ≤ 2 ^ 48) (isTime : row.cycleTimestamp = .fromScalar timestamp)
    (rs1 rs2 rd : RegisterIndex) :
    Ordered cellTime timestamp.toNat (timestamp.toNat + 4) (row.accesses rs1 rs2 rd) := by
  apply ordered_cycle aligned fits
  all_goals
    rw [← isTime]
    rfl

theorem MemoryOpcodeTracingDataWithTimestamp.ordered
    {row : MemoryOpcodeTracingDataWithTimestamp} (aligned : timestamp.toNat % 4 = 0)
    (fits : timestamp.toNat + 4 ≤ 2 ^ 48) (isTime : row.cycleTimestamp = .fromScalar timestamp)
    (rs1 rs2 rd : RegisterIndex) :
    Ordered cellTime timestamp.toNat (timestamp.toNat + 4) (row.accesses rs1 rs2 rd) := by
  rcases row with ⟨data, _, _, _, _⟩
  cases data with
  | load _ =>
      apply ordered_cycle aligned fits
      all_goals
        rw [← isTime]
        rfl
  | store _ =>
      apply ordered_cycle aligned fits
      all_goals
        rw [← isTime]
        rfl

end Times

namespace DelegationWitness

/-- The accesses of a delegation to registers; all its accesses are at one time. -/
def registerAccesses (witness : DelegationWitness) (indices : List RegisterIndex) :
    List MemoryAccess :=
  List.zipWith (fun index (data : RegisterOrIndirectReadWriteData) =>
      rowAccess (.register index) data.timestamp data.readValue
        (.fromScalar witness.writeTimestamp) data.writeValue)
    indices witness.regAccesses

def readAccesses (witness : DelegationWitness) (addresses : List U32) : List MemoryAccess :=
  List.zipWith (fun address (data : RegisterOrIndirectReadData) =>
      rowAccess (.word (wordIdx address)) data.timestamp data.readValue
        (.fromScalar witness.writeTimestamp) data.readValue)
    addresses witness.indirectReads

def writeAccesses (witness : DelegationWitness) (addresses : List U32) : List MemoryAccess :=
  List.zipWith (fun address (data : RegisterOrIndirectReadWriteData) =>
      rowAccess (.word (wordIdx address)) data.timestamp data.readValue
        (.fromScalar witness.writeTimestamp) data.writeValue)
    addresses witness.indirectWrites

/-- The value that a delegation finds in its register of a position. -/
def pointer (witness : DelegationWitness) (position : Nat) : U32 :=
  (witness.regAccesses.map RegisterOrIndirectReadWriteData.readValue).getD position 0

/-- The words of the lanes at the offsets of a Keccak row. -/
def laneAddresses (witness : DelegationWitness) (base : U32) : List U32 :=
  witness.variablesOffsets.flatMap fun offset =>
    let lane := base + 8 * offset.setWidth 32
    [lane, lane + 4]

/-- The accesses of a row by the delegation it is for. -/
def accesses (delegationType : BitVec 16) (witness : DelegationWitness) : List MemoryAccess :=
  if delegationType = Replayer.keccakCsr then
    witness.registerAccesses [10, 11] ++
      witness.writeAccesses (witness.laneAddresses (witness.pointer 1))
  else
    -- the big integer and the Blake2s delegations write at x10 and read at x11
    witness.registerAccesses [10, 11, 12] ++
      witness.readAccesses (wordAddresses (witness.pointer 1) witness.indirectReads.length) ++
      witness.writeAccesses (wordAddresses (witness.pointer 0) witness.indirectWrites.length)

/-- All accesses of a delegation are at one time, and none is to `x0`. -/
theorem of_mem_accesses {delegationType : BitVec 16} {witness : DelegationWitness}
    {access : MemoryAccess} (member : access ∈ witness.accesses delegationType) :
    access.after.1 = .fromScalar witness.writeTimestamp ∧ access.cell ≠ .register 0 := by
  have zipped {A B : Type} {f : A → B → MemoryAccess} {left : List A} {right : List B}
      (all : ∀ a ∈ left, ∀ b, (f a b).after.1 = .fromScalar witness.writeTimestamp ∧
        (f a b).cell ≠ .register 0) (inZip : access ∈ List.zipWith f left right) :
      access.after.1 = .fromScalar witness.writeTimestamp ∧ access.cell ≠ .register 0 := by
    rw [← List.map_uncurry_zip_eq_zipWith] at inZip
    rcases List.mem_map.mp inZip with ⟨pair, listed, rfl⟩
    exact all pair.1 (List.of_mem_zip listed).1 pair.2
  have inRegisters {indices : List RegisterIndex} (notZero : (0 : RegisterIndex) ∉ indices)
      (inZip : access ∈ witness.registerAccesses indices) :
      access.after.1 = .fromScalar witness.writeTimestamp ∧ access.cell ≠ .register 0 := by
    apply zipped _ inZip
    intro index listed _
    refine ⟨rfl, fun same => ?_⟩
    cases MemoryCell.register.inj same
    exact notZero listed
  rw [DelegationWitness.accesses] at member
  split at member
  · rcases List.mem_append.mp member with registers | inWrites
    · exact inRegisters (by decide) registers
    · exact zipped (fun _ _ _ => ⟨rfl, MemoryCell.noConfusion⟩) inWrites
  · rcases List.mem_append.mp member with inFirst | inWrites
    · rcases List.mem_append.mp inFirst with registers | inReads
      · exact inRegisters (by decide) registers
      · exact zipped (fun _ _ _ => ⟨rfl, MemoryCell.noConfusion⟩) inReads
    · exact zipped (fun _ _ _ => ⟨rfl, MemoryCell.noConfusion⟩) inWrites

end DelegationWitness

/-- The registers that the instruction of a row names; a cycle of a delegation names `x0` only. -/
def rowRegisters (tape : Vm.InstructionTape) (pc : U32) (delegationType : BitVec 16) :
    RegisterIndex × RegisterIndex × RegisterIndex :=
  if delegationType = Replayer.bigintCsr ∨ delegationType = Replayer.blakeCsr ∨
      delegationType = Replayer.keccakCsr then
    (0, 0, 0)
  else
    (tape pc).elim (0, 0, 0) fun instr =>
      (instr.rs1, instr.rs2, if instr.name = .branch then 0 else instr.rd)

namespace TraceRow

def accesses (tape : Vm.InstructionTape) : TraceRow → List MemoryAccess
  | .nonMemory _ row =>
      let (rs1, rs2, rd) :=
        rowRegisters tape row.opcodeData.initialPc row.opcodeData.delegationType
      row.accesses rs1 rs2 rd
  | .memory _ row =>
      let (rs1, rs2, rd) := rowRegisters tape row.initialPc 0
      row.accesses rs1 rs2 rd
  | .delegation delegationType witness => witness.accesses delegationType

end TraceRow

/-! ## Rows of instructions -/

namespace Replayer

section Rows

variable {C : Type} {romBits : Nat} {ram : RamWithRomRegion romBits}

/-- The first access of a list is to a register. -/
theorem performs_register (state : State C) (index : RegisterIndex) (register : Register)
    {rest : List MemoryAccess} {memory' : MemoryCell → CellContent}
    (later : Performs (memoryOf (state.setRegister index register) ram) rest memory') :
    Performs (memoryOf state ram)
      (⟨.register index, (state.registers index).content, register.content⟩ :: rest)
      memory' := by
  rw [memoryOf_setRegister] at later
  exact ⟨rfl, later⟩

theorem performs_word (state : State C) (slot : Nat) (register : Register)
    {rest : List MemoryAccess} {memory' : MemoryCell → CellContent}
    (later : Performs (memoryOf state (ram.setSlot slot register)) rest memory') :
    Performs (memoryOf state ram)
      (⟨.word slot, wordContent romBits slot (ram.backing slot),
        wordContent romBits slot register⟩ :: rest) memory' := by
  rw [memoryOf_setSlot] at later
  exact ⟨rfl, later⟩

variable {rest : List MemoryAccess} {memory' : MemoryCell → CellContent}
  {state : State C} {offset : TimestampScalar} {index : RegisterIndex} {value : U32}

theorem performs_read
    (later : Performs (memoryOf (readRegisterWithTs offset index state).2 ram) rest memory') :
    let found := (readRegisterWithTs offset index state).1
    Performs (memoryOf state ram)
      (rowAccess (.register index) (.fromScalar found.2) found.1
        (.fromScalar (state.timestamp ||| offset)) found.1 :: rest) memory' :=
  performs_register state index _ later

theorem performs_write
    (later : Performs (memoryOf (writeRegisterWithTs offset index value state).2 ram) rest
      memory') :
    let found := (writeRegisterWithTs offset index value state).1
    Performs (memoryOf state ram)
      (rowAccess (.register index) (.fromScalar found.2.2) found.2.1
        (.fromScalar (state.timestamp ||| offset)) found.1 :: rest) memory' :=
  performs_register state index _ later

theorem performs_wordRead {address word : U32} {readTimestamp writeTimestamp : TimestampScalar}
    (found : ram.backing (wordIdx address) = ⟨readTimestamp, word⟩)
    (later : Performs
      (memoryOf state (ram.setSlot (wordIdx address) ⟨writeTimestamp, word⟩)) rest memory') :
    let value := ReplayerRam.maskReadForWitness romBits address word
    Performs (memoryOf state ram)
      (rowAccess (.word (wordIdx address)) (.fromScalar readTimestamp) value
        (.fromScalar writeTimestamp) value :: rest) memory' := by
  have performs := performs_word state (wordIdx address) _ later
  rw [found, wordContent_wordIdx, wordContent_wordIdx] at performs
  exact performs

theorem performs_wordWrite {slot : Nat} {oldValue word : U32}
    {readTimestamp writeTimestamp : TimestampScalar} (aboveRom : romWords romBits ≤ slot)
    (found : ram.backing slot = ⟨readTimestamp, oldValue⟩)
    (later : Performs (memoryOf state (ram.setSlot slot ⟨writeTimestamp, word⟩)) rest memory') :
    Performs (memoryOf state ram)
      (rowAccess (.word slot) (.fromScalar readTimestamp) oldValue (.fromScalar writeTimestamp)
        word :: rest) memory' := by
  have performs := performs_word state slot _ later
  rw [found, wordContent_of_above aboveRom, wordContent_of_above aboveRom] at performs
  exact performs

/-- The row of two reads and a write, whatever the handler calls them. -/
theorem nonMemoryRow_performs (state : State C) {rs1 rs2 rd : RegisterIndex} {value : U32}
    {first second : U32 × TimestampScalar} {target : U32 × U32 × TimestampScalar} (newPc : U32)
    (delegationType : BitVec 16)
    (isFirst : first = (readRegisterWithTs 0 rs1 state).1)
    (isSecond : second = (readRegisterWithTs 1 rs2 (readRegisterWithTs 0 rs1 state).2).1)
    (isTarget : target = (writeRegisterWithTs 2 rd value
      (readRegisterWithTs 1 rs2 (readRegisterWithTs 0 rs1 state).2).2).1) :
    Performs (memoryOf state ram)
      ((nonMemoryRow state first second target newPc delegationType).accesses rs1 rs2 rd)
      (memoryOf (writeRegisterWithTs 2 rd value
        (readRegisterWithTs 1 rs2 (readRegisterWithTs 0 rs1 state).2).2).2 ram) := by
  rw [isFirst, isSecond, isTarget]
  simp only [NonMemoryOpcodeTracingDataWithTimestamp.accesses, nonMemoryRow,
    TimestampData.plusOffset_fromScalar]
  apply performs_read
  apply performs_read
  apply performs_write
  exact .refl _

end Rows

end Replayer

end Airbender
