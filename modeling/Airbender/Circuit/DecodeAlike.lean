import Airbender.Circuit.DecoderExact
import Airbender.Circuit.Executor
import Airbender.Vm.DelegationFolding

/-!
# The executor and the circuits decode alike

A word that the executor runs belongs to one circuit, which counts it and reads the same
registers and the same immediate.
-/

namespace Airbender

open Ir Riscv Bigint

/-! ## The family a step counts -/

namespace Vm

/-- The circuit family of a handler. -/
def Opcode.family : Opcode → CircuitFamily
  | .alu family _ _ | .load family _ _ | .store family _ _ => family
  | .lui | .auipc => .addSubLuiAuipcMop
  | .jal | .jalr | .branch => .jumpBranchSlt
  | .ndRead | .ndWrite | .delegation => .shiftBinaryCsr

section Counting

variable {C : Type} [Counters C]

theorem aluOp_counters (family : CircuitFamily) (op : U32 → U32 → U32) (useImm : Bool)
    (state : State C) (instr : Instruction) :
    (aluOp family op useImm state instr).counters =
      Counters.logMultipleCircuitFamilyCalls family 1 state.counters := by
  cases useImm with
  | true => rfl
  | false => rfl

/-- A step that is not a delegation counts one call of the family of its handler. -/
theorem executeOpcode_counters {romBits : Nat} {ND : Type} [NonDeterminismCSRSource ND] [Ruint]
    {opcode : Opcode} (single : opcode ≠ .delegation) {machine machine' : Machine C romBits ND} {instr : Instruction}
    {events : List SnapshotEvent}
    (executed : executeOpcode opcode machine instr = some (machine', events)) :
    machine'.state.counters =
      Counters.logMultipleCircuitFamilyCalls opcode.family 1 machine.state.counters := by
  cases opcode <;>
    simp only [executeOpcode, Machine.onState, Machine.onMemory, Option.map_eq_some_iff,
      Prod.mk.injEq, Prod.exists, exists_eq_left', Option.some.injEq] at executed
  case alu family op useImm =>
    rcases executed with ⟨rfl, rfl⟩
    exact aluOp_counters family op useImm machine.state instr
  case lui =>
    rcases executed with ⟨rfl, rfl⟩
    rfl
  case auipc =>
    rcases executed with ⟨rfl, rfl⟩
    rfl
  case jal =>
    rcases executed with ⟨state', jumped, rfl, rfl⟩
    simp only [Vm.jal, Option.bind_eq_bind, Option.bind_eq_some_iff, jumpTo_eq_some_iff,
      Option.some.injEq] at jumped
    rcases jumped with ⟨_, ⟨_, rfl⟩, rfl⟩
    rfl
  case jalr =>
    rcases executed with ⟨state', jumped, rfl, rfl⟩
    simp only [Vm.jalr, Option.bind_eq_bind, Option.bind_eq_some_iff, jumpTo_eq_some_iff,
      Option.some.injEq] at jumped
    rcases jumped with ⟨_, ⟨_, rfl⟩, rfl⟩
    rfl
  case branch =>
    rcases executed with ⟨state', branched, rfl, rfl⟩
    rcases branch_eq_some branched with ⟨shouldJump, _, rfl⟩
    rfl
  case load family size value =>
    rcases executed with ⟨state', ram', _, loaded, rfl, rfl⟩
    rcases loadOp_eq_some loaded with ⟨_, _, _, _, _, _, rfl⟩
    rfl
  case store family size newWord =>
    rcases executed with ⟨state', ram', _, stored, rfl, rfl⟩
    rcases storeOp_eq_some stored with ⟨_, _, _, _, _, _, _, _, _, rfl⟩
    rfl
  case ndRead =>
    rcases executed with ⟨state', nd', _, read, rfl, rfl⟩
    rcases ndRead_eq_some read with ⟨value, _, rfl⟩
    rfl
  case ndWrite =>
    rcases executed with ⟨state', nd', written, rfl, rfl⟩
    rw [ndWrite_eq_some written]
    rfl
  case delegation => exact absurd rfl single

end Counting

end Vm

namespace Circuit

/-! ## The fields of a record -/

/-- The immediates of a decoder and of the executor: the executor keeps five bits of a shift
amount and drops the index of the non-determinism CSR. -/
def sameImm (name : InstructionName) (decoded executed : U32) : Prop :=
  match name with
  | .slli | .srli | .srai => decoded.toNat % 32 = executed.toNat % 32
  | .zicsrNonDeterminismRead | .zicsrNonDeterminismWrite =>
      decoded = nonDeterminismCsr ∧ executed = 0
  | _ => decoded = executed

/-- The executor keeps `funct3` of a branch in the destination field. -/
structure SameFields (data : ExecutorFamilyDecoderData) (instr : Instruction) : Prop where
  rs1 : data.rs1Index = instr.rs1
  rs2 : data.rs2Index = instr.rs2
  rd : data.rdIndex = if instr.name = .branch then 0 else instr.rd
  imm : sameImm instr.name data.imm instr.imm

/-- Words outside the encodings of RISC-V which the executor reads as `JALR` or as one of `SLT`,
`SLTU`, `XOR`, `OR` and `AND`. -/
def ReadLoosely (word : U32) : Prop :=
  (opcode word = opcodeJalr ∧ funct3 word ≠ 0) ∨
    (opcode word = opSubmask ∧ funct3 word ∈ [2, 3, 4, 6, 7] ∧
      funct7 word ≠ 0 ∧ funct7 word ≠ mExtFunct7)

/-- An operation of the unsigned machine whose words the executor turns into this record. -/
structure Emits (op : Operation) (word : U32) (instr : Instruction) : Prop where
  supported : op ∈ Operation.supported false
  encodes : op.Encodes word
  nonDeterminism : op = .csrrw → csr word = 0x7c0
  handler : (Vm.opcodeOf instr.name).map Vm.Opcode.family =
    (op.decoder false).map OpcodeFamilyDecoder.instructionFamilyIndex
  fields : SameFields (op.expected false word).data instr

section Words

variable {word : U32} {instr : Instruction}

theorem isField {n : Nat} {field value : BitVec n} (same : field = value) :
    ∀ fixed ∈ some value, field = fixed := by
  intro fixed isFixed
  rw [same]
  exact Option.some.inj isFixed

theorem noField {n : Nat} {field : BitVec n} : ∀ fixed ∈ none, field = fixed := by
  intro fixed isFixed
  cases isFixed

/-! ## Decoding group by group -/

theorem decodeBranch_emits (group : opcode word = opcodeBranch)
    (decoded : decodeBranch word = some instr) : ∃ op, Emits op word instr := by
  simp only [decodeBranch, BTypeOpcode.imm_extended, funct3Bits_eq, getFormalRs1Bits_eq,
    getFormalRs2Bits_eq] at decoded
  split at decoded
  case h_1 funct3 =>
    cases decoded
    exact ⟨.beq, by decide, ⟨group, isField funct3, noField⟩, nofun, rfl, rfl, rfl, rfl, rfl⟩
  case h_2 funct3 =>
    cases decoded
    exact ⟨.bne, by decide, ⟨group, isField funct3, noField⟩, nofun, rfl, rfl, rfl, rfl, rfl⟩
  case h_3 funct3 =>
    cases decoded
    exact ⟨.blt, by decide, ⟨group, isField funct3, noField⟩, nofun, rfl, rfl, rfl, rfl, rfl⟩
  case h_4 funct3 =>
    cases decoded
    exact ⟨.bge, by decide, ⟨group, isField funct3, noField⟩, nofun, rfl, rfl, rfl, rfl, rfl⟩
  case h_5 funct3 =>
    cases decoded
    exact ⟨.bltu, by decide, ⟨group, isField funct3, noField⟩, nofun, rfl, rfl, rfl, rfl, rfl⟩
  case h_6 funct3 =>
    cases decoded
    exact ⟨.bgeu, by decide, ⟨group, isField funct3, noField⟩, nofun, rfl, rfl, rfl, rfl, rfl⟩
  case h_7 => cases decoded

theorem shiftImm (imm : U32) : imm.toNat % 32 = (imm &&& 0x1f).toNat % 32 := by
  have mask : (imm &&& 0x1f).toNat = imm.toNat % 32 := Nat.and_two_pow_sub_one_eq_mod imm.toNat 5
  rw [mask, Nat.mod_mod]

theorem decodeOpImm_emits (group : opcode word = opImmSubmask)
    (decoded : decodeOpImm word = some instr) : ∃ op, Emits op word instr := by
  simp only [decodeOpImm, ITypeOpcode.imm_extended, funct3Bits_eq, funct7Bits_eq,
    getFormalRs1Bits_eq, getRdBits_eq] at decoded
  split at decoded
  case h_1 funct3 =>
    cases decoded
    exact ⟨.addi, by decide, ⟨group, isField funct3, noField⟩, nofun, rfl, rfl, rfl, rfl, rfl⟩
  case h_2 funct3 =>
    split at decoded
    case isTrue funct7 =>
      cases decoded
      exact ⟨.slli, by decide, ⟨group, isField funct3, isField funct7⟩, nofun, rfl, rfl, rfl, rfl,
        shiftImm _⟩
    case isFalse => cases decoded
  case h_3 funct3 =>
    split at decoded
    case isTrue funct7 =>
      cases decoded
      exact ⟨.srli, by decide, ⟨group, isField funct3, isField funct7⟩, nofun, rfl, rfl, rfl, rfl,
        shiftImm _⟩
    case isFalse =>
      split at decoded
      case isTrue funct7 =>
        cases decoded
        exact ⟨.srai, by decide, ⟨group, isField funct3, isField funct7⟩, nofun, rfl, rfl, rfl, rfl,
          shiftImm _⟩
      case isFalse => cases decoded
  case h_4 funct3 =>
    cases decoded
    exact ⟨.slti, by decide, ⟨group, isField funct3, noField⟩, nofun, rfl, rfl, rfl, rfl, rfl⟩
  case h_5 funct3 =>
    cases decoded
    exact ⟨.sltiu, by decide, ⟨group, isField funct3, noField⟩, nofun, rfl, rfl, rfl, rfl, rfl⟩
  case h_6 funct3 =>
    cases decoded
    exact ⟨.xori, by decide, ⟨group, isField funct3, noField⟩, nofun, rfl, rfl, rfl, rfl, rfl⟩
  case h_7 funct3 =>
    cases decoded
    exact ⟨.ori, by decide, ⟨group, isField funct3, noField⟩, nofun, rfl, rfl, rfl, rfl, rfl⟩
  case h_8 funct3 =>
    cases decoded
    exact ⟨.andi, by decide, ⟨group, isField funct3, noField⟩, nofun, rfl, rfl, rfl, rfl, rfl⟩

theorem decodeMulDiv_emits (group : opcode word = opSubmask) (funct7 : funct7 word = mExtFunct7)
    (legal : (decodeMulDiv fullUnsignedMachineDecoderConfig word).name ≠ .illegal) :
    ∃ op, Emits op word (decodeMulDiv fullUnsignedMachineDecoderConfig word) := by
  simp only [decodeMulDiv, funct3Bits_eq, getFormalRs1Bits_eq, getFormalRs2Bits_eq,
    getRdBits_eq] at legal ⊢
  split at legal
  case h_1 funct3 =>
    exact ⟨.mul, by decide, ⟨group, isField funct3, isField funct7⟩, nofun, rfl, rfl, rfl, rfl,
      rfl⟩
  case h_2 => exact absurd rfl legal
  case h_3 => exact absurd rfl legal
  case h_4 funct3 =>
    exact ⟨.mulhu, by decide, ⟨group, isField funct3, isField funct7⟩, nofun, rfl, rfl, rfl, rfl,
      rfl⟩
  case h_5 => exact absurd rfl legal
  case h_6 funct3 =>
    exact ⟨.divu, by decide, ⟨group, isField funct3, isField funct7⟩, nofun, rfl, rfl, rfl, rfl,
      rfl⟩
  case h_7 => exact absurd rfl legal
  case h_8 funct3 =>
    exact ⟨.remu, by decide, ⟨group, isField funct3, isField funct7⟩, nofun, rfl, rfl, rfl, rfl,
      rfl⟩

/-- Only the additive and the shift groups of the executor look at `funct7`. -/
theorem decodeBasicOp_emits (group : opcode word = opSubmask)
    (basic : funct7 word ≠ mExtFunct7) (strict : ¬ ReadLoosely word)
    (decoded : decodeBasicOp word = some instr) : ∃ op, Emits op word instr := by
  have exact7 (listed : funct3 word ∈ [2, 3, 4, 6, 7]) : funct7 word = 0 := by
    by_contra different
    exact strict (Or.inr ⟨group, listed, different, basic⟩)
  simp only [decodeBasicOp, funct3Bits_eq, funct7Bits_eq, getFormalRs1Bits_eq,
    getFormalRs2Bits_eq, getRdBits_eq] at decoded
  split at decoded
  case h_1 funct3 =>
    split at decoded
    case isTrue funct7 =>
      cases decoded
      exact ⟨.add, by decide, ⟨group, isField funct3, isField funct7⟩, nofun, rfl, rfl, rfl, rfl,
        rfl⟩
    case isFalse =>
      split at decoded
      case isTrue funct7 =>
        cases decoded
        exact ⟨.sub, by decide, ⟨group, isField funct3, isField funct7⟩, nofun, rfl, rfl, rfl, rfl,
          rfl⟩
      case isFalse => cases decoded
  case h_2 funct3 =>
    split at decoded
    case isTrue funct7 =>
      cases decoded
      exact ⟨.sll, by decide, ⟨group, isField funct3, isField funct7⟩, nofun, rfl, rfl, rfl, rfl,
        rfl⟩
    case isFalse => cases decoded
  case h_3 funct3 =>
    split at decoded
    case isTrue funct7 =>
      cases decoded
      exact ⟨.srl, by decide, ⟨group, isField funct3, isField funct7⟩, nofun, rfl, rfl, rfl, rfl,
        rfl⟩
    case isFalse =>
      split at decoded
      case isTrue funct7 =>
        cases decoded
        exact ⟨.sra, by decide, ⟨group, isField funct3, isField funct7⟩, nofun, rfl, rfl, rfl, rfl,
          rfl⟩
      case isFalse => cases decoded
  case h_4 funct3 =>
    have funct7 := exact7 (by rw [funct3]; decide)
    cases decoded
    exact ⟨.slt, by decide, ⟨group, isField funct3, isField funct7⟩, nofun, rfl, rfl, rfl, rfl,
      rfl⟩
  case h_5 funct3 =>
    have funct7 := exact7 (by rw [funct3]; decide)
    cases decoded
    exact ⟨.sltu, by decide, ⟨group, isField funct3, isField funct7⟩, nofun, rfl, rfl, rfl, rfl,
      rfl⟩
  case h_6 funct3 =>
    have funct7 := exact7 (by rw [funct3]; decide)
    cases decoded
    exact ⟨.xor, by decide, ⟨group, isField funct3, isField funct7⟩, nofun, rfl, rfl, rfl, rfl,
      rfl⟩
  case h_7 funct3 =>
    have funct7 := exact7 (by rw [funct3]; decide)
    cases decoded
    exact ⟨.or, by decide, ⟨group, isField funct3, isField funct7⟩, nofun, rfl, rfl, rfl, rfl,
      rfl⟩
  case h_8 funct3 =>
    have funct7 := exact7 (by rw [funct3]; decide)
    cases decoded
    exact ⟨.and, by decide, ⟨group, isField funct3, isField funct7⟩, nofun, rfl, rfl, rfl, rfl,
      rfl⟩

theorem decodeLoad_emits (group : opcode word = opcodeLoad)
    (decoded : decodeLoad fullUnsignedMachineDecoderConfig word = some instr) :
    ∃ op, Emits op word instr := by
  simp only [decodeLoad, ITypeOpcode.imm_extended, funct3Bits_eq, getFormalRs1Bits_eq,
    getRdBits_eq] at decoded
  split at decoded
  case h_1 funct3 =>
    cases decoded
    exact ⟨.lb, by decide, ⟨group, isField funct3, noField⟩, nofun, rfl, rfl, rfl, rfl, rfl⟩
  case h_2 funct3 =>
    cases decoded
    exact ⟨.lh, by decide, ⟨group, isField funct3, noField⟩, nofun, rfl, rfl, rfl, rfl, rfl⟩
  case h_3 funct3 =>
    cases decoded
    exact ⟨.lw, by decide, ⟨group, isField funct3, noField⟩, nofun, rfl, rfl, rfl, rfl, rfl⟩
  case h_4 funct3 =>
    cases decoded
    exact ⟨.lbu, by decide, ⟨group, isField funct3, noField⟩, nofun, rfl, rfl, rfl, rfl, rfl⟩
  case h_5 funct3 =>
    cases decoded
    exact ⟨.lhu, by decide, ⟨group, isField funct3, noField⟩, nofun, rfl, rfl, rfl, rfl, rfl⟩
  case h_6 => cases decoded

theorem decodeStore_emits (group : opcode word = opcodeStore)
    (decoded : decodeStore fullUnsignedMachineDecoderConfig word = some instr) :
    ∃ op, Emits op word instr := by
  simp only [decodeStore, STypeOpcode.imm_extended, funct3Bits_eq, getFormalRs1Bits_eq,
    getFormalRs2Bits_eq] at decoded
  split at decoded
  case h_1 funct3 =>
    cases decoded
    exact ⟨.sb, by decide, ⟨group, isField funct3, noField⟩, nofun, rfl, rfl, rfl, rfl, rfl⟩
  case h_2 funct3 =>
    cases decoded
    exact ⟨.sh, by decide, ⟨group, isField funct3, noField⟩, nofun, rfl, rfl, rfl, rfl, rfl⟩
  case h_3 funct3 =>
    cases decoded
    exact ⟨.sw, by decide, ⟨group, isField funct3, noField⟩, nofun, rfl, rfl, rfl, rfl, rfl⟩
  case h_4 => cases decoded

/-- The machine without the field operations decodes them to the filler. -/
theorem decodeMop_illegal
    (decoded : decodeMop fullUnsignedMachineDecoderConfig word = some instr) :
    instr.name = .illegal := by
  simp only [decodeMop, fullUnsignedMachineDecoderConfig, ifSupported, Bool.false_eq_true,
    if_false] at decoded
  split at decoded
  · split at decoded
    all_goals cases decoded
    all_goals rfl
  · cases decoded

/-- A CSR instruction that is not a delegation accesses the non-determinism CSR. -/
theorem decodeZicsr_emits (group : opcode word = opcodeSystem)
    (legal : instr.name ≠ .illegal) (noDelegation : instr.name ≠ .zicsrDelegation)
    (decoded : decodeZicsr word = some (.single instr)) : ∃ op, Emits op word instr := by
  simp only [decodeZicsr, funct3Bits_eq, getFormalRs1Bits_eq, getRdBits_eq] at decoded
  split at decoded
  case isTrue isNonDeterminism =>
    have immediate : (csr word).setWidth 32 = nonDeterminismCsr := by
      rw [← ITypeOpcode.imm_eq]
      exact isNonDeterminism
    have index := (csr_eq_nonDeterminism_iff word).mp immediate
    split at decoded
    case isTrue noSource =>
      split at decoded
      case isTrue funct3 =>
        cases decoded
        exact ⟨.csrrw, by decide, ⟨group, isField funct3, noField⟩, fun _ => index, rfl, noSource,
          rfl, rfl, immediate, rfl⟩
      case isFalse => cases decoded
    case isFalse =>
      split at decoded
      case isTrue noDestination =>
        split at decoded
        case isTrue funct3 =>
          cases decoded
          exact ⟨.csrrw, by decide, ⟨group, isField funct3, noField⟩, fun _ => index, rfl, rfl,
            rfl, noDestination, immediate, rfl⟩
        case isFalse => cases decoded
      case isFalse => cases decoded
  case isFalse =>
    split_ifs at decoded
    all_goals cases decoded
    · exact absurd rfl noDelegation
    · exact absurd rfl legal

theorem decodeSystem_emits (group : opcode word = opcodeSystem)
    (legal : instr.name ≠ .illegal) (noDelegation : instr.name ≠ .zicsrDelegation)
    (decoded : decodeSystem fullUnsignedMachineDecoderConfig word = some (.single instr)) :
    ∃ op, Emits op word instr := by
  unfold decodeSystem at decoded
  split at decoded
  · rcases Option.map_eq_some_iff.mp decoded with ⟨mop, mopDecoded, same⟩
    cases same
    exact absurd (decodeMop_illegal mopDecoded) legal
  · split at decoded
    · exact decodeZicsr_emits group legal noDelegation decoded
    · cases decoded

/-- The groups that decode to one instruction or panic. -/
theorem emits_of_map {decode : Option Instruction}
    (emits : ∀ decoded, decode = some decoded → ∃ op, Emits op word decoded)
    (decoded : decode.map DecodedWord.single = some (.single instr)) :
    ∃ op, Emits op word instr := by
  rcases Option.map_eq_some_iff.mp decoded with ⟨inner, found, same⟩
  rw [← DecodedWord.single.inj same]
  exact emits inner found

/-- A word the executor runs is a word of an operation of the machine. -/
theorem decodeWord_emits (strict : ¬ ReadLoosely word) (legal : instr.name ≠ .illegal)
    (noDelegation : instr.name ≠ .zicsrDelegation)
    (decoded : decodeWord fullUnsignedMachineDecoderConfig word = some (.single instr)) :
    ∃ op, Emits op word instr := by
  simp only [decodeWord, getOpcodeBits_eq] at decoded
  split at decoded
  case isTrue group =>
    cases decoded
    rw [UTypeOpcode.imm_eq, getRdBits_eq]
    exact ⟨.lui, by decide, ⟨group, noField, noField⟩, nofun, rfl, rfl, rfl, rfl, rfl⟩
  case isFalse =>
  split at decoded
  case isTrue group =>
    cases decoded
    rw [UTypeOpcode.imm_eq, getRdBits_eq]
    exact ⟨.auipc, by decide, ⟨group, noField, noField⟩, nofun, rfl, rfl, rfl, rfl, rfl⟩
  case isFalse =>
  split at decoded
  case isTrue group =>
    cases decoded
    rw [JTypeOpcode.imm_extended, getRdBits_eq]
    exact ⟨.jal, by decide, ⟨group, noField, noField⟩, nofun, rfl, rfl, rfl, rfl, rfl⟩
  case isFalse =>
  split at decoded
  case isTrue group =>
    have funct3 : funct3 word = 0 := by
      by_contra different
      exact strict (Or.inl ⟨group, different⟩)
    cases decoded
    rw [ITypeOpcode.imm_extended, getRdBits_eq, getFormalRs1Bits_eq]
    exact ⟨.jalr, by decide, ⟨group, isField funct3, noField⟩, nofun, rfl, rfl, rfl, rfl, rfl⟩
  case isFalse =>
  split at decoded
  case isTrue group => exact emits_of_map (fun _ => decodeBranch_emits group) decoded
  case isFalse =>
  split at decoded
  case isTrue group => exact emits_of_map (fun _ => decodeOpImm_emits group) decoded
  case isFalse =>
  split at decoded
  case isTrue group =>
    rw [funct7Bits_eq] at decoded
    split at decoded
    case isTrue funct7 =>
      cases decoded
      exact decodeMulDiv_emits group funct7 legal
    case isFalse basic =>
      exact emits_of_map (fun _ => decodeBasicOp_emits group basic strict) decoded
  case isFalse =>
  split at decoded
  case isTrue group => exact emits_of_map (fun _ => decodeLoad_emits group) decoded
  case isFalse =>
  split at decoded
  case isTrue group => exact emits_of_map (fun _ => decodeStore_emits group) decoded
  case isFalse =>
  split at decoded
  case isTrue group => exact decodeSystem_emits group legal noDelegation decoded
  case isFalse =>
    cases decoded
    exact absurd rfl legal

end Words

/-! ## Images -/

/-- The word behind an instruction of a preprocessed image. -/
theorem decodeWord_of_emitted {opt : DecodingOptions} {bytecode : List U32}
    {instructions : List Instruction}
    (preprocessed : preprocessBytecode opt bytecode = some instructions) {i : Nat} {word : U32}
    (atWord : bytecode[i]? = some word) {instr : Instruction}
    (emitted : instructions[i]? = some instr) (legal : instr.name ≠ .illegal)
    (noDelegation : instr.name ≠ .zicsrDelegation) :
    decodeWord opt word = some (.single instr) := by
  rcases preprocessBytecode_emittedOnly preprocessed i instr emitted with rfl | ⟨_, _, run⟩
  · exact absurd rfl legal
  · simp only [preprocessAt, atWord, Option.bind_eq_bind, Option.bind_some,
      Option.bind_eq_some_iff] at run
    rcases run with ⟨decodedWord, decoded, run⟩
    cases decodedWord with
    | single instruction =>
        cases run
        exact decoded
    | blakeRun =>
        simp only [Option.bind_eq_some_iff] at run
        rcases run with ⟨numCalls, _, run⟩
        split at run
        · cases run
          exact absurd rfl noDelegation
        · cases run
    | keccakRun =>
        simp only [Option.bind_eq_some_iff] at run
        rcases run with ⟨numCalls, _, run⟩
        split at run
        · cases run
          exact absurd rfl noDelegation
        · cases run

/-- A word of an image that the executor runs, and that is an encoding of RISC-V, is accepted by
one decoder of the unsigned machine: the one of the family that its handler counts, with the
fields of the executor's record. -/
theorem preprocessBytecode_decoder {bytecode : List U32} {instructions : List Instruction}
    (preprocessed :
      preprocessBytecode fullUnsignedMachineDecoderConfig bytecode = some instructions)
    {i : Nat} {word : U32} (atWord : bytecode[i]? = some word) {instr : Instruction}
    (emitted : instructions[i]? = some instr) (legal : instr.name ≠ .illegal)
    (noDelegation : instr.name ≠ .zicsrDelegation) (strict : ¬ ReadLoosely word) :
    ∃ decoder ∈ opcodesForFullMachineWithMemWordAccessSpecialization false, ∃ extended,
      decoder.defineDecoderSubspace word = .ok extended ∧
      (∀ other ∈ opcodesForFullMachineWithMemWordAccessSpecialization false,
        other.Accepts word → other = decoder) ∧
      SameFields extended.data instr ∧
      (Vm.opcodeOf instr.name).map Vm.Opcode.family = some decoder.instructionFamilyIndex ∧
      ∀ (C : Type) [Counters C] (romBits : Nat) (ND : Type) [Vm.NonDeterminismCSRSource ND]
        [Ruint] (machine machine' : Vm.Machine C romBits ND) (events : List SnapshotEvent),
        Vm.execute machine instr = some (machine', events) →
          machine'.state.counters =
            Counters.logMultipleCircuitFamilyCalls decoder.instructionFamilyIndex 1
              machine.state.counters := by
  have decoded := decodeWord_of_emitted preprocessed atWord emitted legal noDelegation
  rcases decodeWord_emits strict legal noDelegation decoded with ⟨op, emits⟩
  rcases exists_decoder emits.supported with ⟨decoder, inMachine, belongs, _⟩
  have accepted : op.Accepted word :=
    ⟨emits.encodes, fun isCsr => Or.inl (emits.nonDeterminism isCsr)⟩
  have produced : decoder.defineDecoderSubspace word = .ok (op.expected false word) :=
    (defineDecoderSubspace_eq_ok_iff inMachine).mpr
      ⟨op, emits.supported, accepted, belongs, rfl⟩
  have counted : (Vm.opcodeOf instr.name).map Vm.Opcode.family =
      some decoder.instructionFamilyIndex := by
    rw [emits.handler, belongs]
    rfl
  refine ⟨decoder, inMachine, op.expected false word, produced, ?_, emits.fields, counted, ?_⟩
  · intro other inOther accepts
    exact accepts_unique inOther inMachine accepts ⟨_, produced⟩
  · intro C _ romBits ND _ _ machine machine' events executed
    rw [Vm.execute_eq] at executed
    rcases Option.bind_eq_some_iff.mp executed with ⟨opcode, handler, executed⟩
    rw [handler, Option.map_some] at counted
    rw [← Option.some.inj counted]
    apply Vm.executeOpcode_counters _ executed
    rintro rfl
    cases named : instr.name <;> rw [named] at handler <;> first
      | exact noDelegation named
      | cases handler

/-- An `ADDI` at the start of an image. -/
theorem preprocessBytecode_decoder_addi :
    ∃ decoder ∈ opcodesForFullMachineWithMemWordAccessSpecialization false, ∃ extended,
      decoder.defineDecoderSubspace 0x00100093 = .ok extended ∧
        SameFields extended.data ⟨.addi, 0, 0, 1, 1⟩ := by
  have produced := preprocessBytecode_decoder (show _ = some [⟨.addi, 0, 0, 1, 1⟩] from rfl)
    (show [0x00100093][0]? = some _ from rfl) rfl (by decide) (by decide)
    (by unfold ReadLoosely; decide)
  rcases produced with ⟨decoder, inMachine, extended, accepted, _, fields, _⟩
  exact ⟨decoder, inMachine, extended, accepted, fields⟩

/-- The executor runs a jump with a reserved `funct3` that no decoder accepts, and it reads no
immediate from an access to the non-determinism CSR, whose index is the immediate of the
circuit. -/
theorem decode_differs :
    (preprocessBytecode fullUnsignedMachineDecoderConfig [0x00001067] =
        some [⟨.jalr, 0, 0, 0, 0⟩] ∧
      ∀ decoder ∈ opcodesForFullMachineWithMemWordAccessSpecialization false,
        decoder.defineDecoderSubspace 0x00001067 = .err) ∧
    (preprocessBytecode fullUnsignedMachineDecoderConfig [0x7c0010f3] =
        some [⟨.zicsrNonDeterminismRead, 0, 0, 1, 0⟩] ∧
      ∃ extended,
        OpcodeFamilyDecoder.shiftBinaryCsrrwDecoder.defineDecoderSubspace 0x7c0010f3 =
            .ok extended ∧
          extended.data.imm = 0x7c0) := by
  refine ⟨⟨rfl, by decide⟩, rfl, _, rfl, rfl⟩

end Circuit

end Airbender
