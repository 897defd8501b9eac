import Airbender.Circuit.Machine
import Airbender.Ir.Fields

/-!
# The decoders tile the encoding space

The arms of the six decoders of a machine are the encodings of its operations, one arm each,
and no two of them overlap.
-/

namespace Airbender

open Circuit Riscv

/-! ## What a machine supports -/

namespace Riscv.Operation

/-- The operations of a machine, decoder by decoder. -/
def supported (supportSigned : Bool) : List Operation :=
  [add, addi, sub, lui, auipc, addmod, submod, mulmod,
    jal, jalr, slti, sltiu, slt, sltu, beq, bne, blt, bge, bltu, bgeu,
    slli, srli, srai, sll, srl, sra, and, andi, or, ori, xor, xori, csrrw,
    lw, sw, lb, lh, lbu, lhu, sb, sh] ++
  if supportSigned then [mul, mulh, mulhsu, mulhu, div, divu, rem, remu]
  else [mul, mulhu, divu, remu]

/-- The decoder an operation belongs to; fences and environment calls have none. -/
def decoder (supportSigned : Bool) : Operation → Option OpcodeFamilyDecoder
  | add | addi | sub | lui | auipc | addmod | submod | mulmod => some .addSubLuiAuipcMopDecoder
  | jal | jalr | slti | sltiu | slt | sltu | beq | bne | blt | bge | bltu | bgeu =>
      some (.jumpSltBranchDecoder true)
  | slli | srli | srai | sll | srl | sra | and | andi | or | ori | xor | xori | csrrw =>
      some .shiftBinaryCsrrwDecoder
  | lw | sw => some .wordOnlyMemoryFamilyDecoder
  | lb | lh | lbu | lhu | sb | sh => some .subwordOnlyMemoryFamilyDecoder
  | mul | mulhu | divu | remu => some (.divMulDecoder supportSigned)
  | mulh | mulhsu | div | rem => if supportSigned then some (.divMulDecoder true) else none
  | fence | ecall | ebreak => none

/-- The bits of the family mask that an operation sets. -/
def familyMask (supportSigned : Bool) : Operation → List Nat
  | add => [addOpBit]
  | addi => [addiOpBit]
  | sub => [subOpBit]
  | lui => [luiOpBit]
  | auipc => [auipcOpBit]
  | addmod => [addmodBit]
  | submod => [submodBit]
  | mulmod => [mulmodBit]
  | jal => [jalBit]
  | jalr => [jalrBit]
  | slti | sltiu => [sltiBit]
  | slt | sltu => [sltBit]
  | beq | bne | blt | bge | bltu | bgeu => [branchBit]
  | slli => [sllBit, useImmBit]
  | srli => [srlBit, useImmBit]
  | srai => [sraBit, useImmBit]
  | sll => [sllBit]
  | srl => [srlBit]
  | sra => [sraBit]
  | and | or | xor => [binaryOpBit]
  | andi | ori | xori => [binaryOpBit, useImmBit]
  | csrrw => [csrrwBit]
  | sw | sb | sh => [writeBit]
  | mul => if supportSigned then [mulMulhMulhsuDivRem, mulMulhDivRem, mulDivDivu]
      else [unsignedMulDivu]
  | mulh => [mulMulhMulhsuDivRem, mulMulhDivRem]
  | mulhsu => [mulMulhMulhsuDivRem]
  | div => [isDivisionBit, mulMulhMulhsuDivRem, mulMulhDivRem, mulDivDivu]
  | divu => [isDivisionBit, mulDivDivu]
  | rem => [isDivisionBit, mulMulhMulhsuDivRem, mulMulhDivRem]
  | remu => [isDivisionBit]
  | lw | lb | lh | lbu | lhu | mulhu | fence | ecall | ebreak => []

end Riscv.Operation

def Riscv.Format.instructionType : Format → InstructionType
  | .r => .rType
  | .i => .iType
  | .s => .sType
  | .b => .bType
  | .u => .uType
  | .j => .jType

/-- What a decoder should return for a word of an operation. -/
def Riscv.Operation.expected (supportSigned : Bool) (op : Operation) (word : U32) :
    ExecutorFamilyDecoderExtendedData :=
  let format := op.encoding.format
  let rdIndex := if format.hasRd then rd word else 0
  { data :=
      { imm := op.immediate word
        rs1Index := if format.hasRs1 then rs1 word else 0
        rs2Index := if format.hasRs2 then rs2 word else 0
        rdIndex := rdIndex
        rdIsZero := rdIndex = 0
        funct3 := funct3 word
        funct7 := some (funct7 word)
        opcodeFamilyBits := familyBits (op.familyMask supportSigned) }
    instructionFormat := format.instructionType
    validateCsrIndexInImmediate := op = .csrrw }

/-- A word that the decoders accept as this operation: a CSR other than the non-determinism one
must not read a register. -/
def Riscv.Operation.Accepted (op : Operation) (word : U32) : Prop :=
  op.Encodes word ∧ (op = .csrrw → csr word = 0x7c0 ∨ rs1 word = 0)

namespace Circuit

/-! ## Arms as encodings -/

/-- The arm of an operation. -/
def operationArm (supportSigned : Bool) (op : Operation) : DecoderArm where
  op := op.encoding.opcode
  funct3 := op.encoding.funct3
  funct7 := op.encoding.funct7
  instructionType := op.encoding.format.instructionType
  clearRs1 := !op.encoding.format.hasRs1
  clearRs2 := !op.encoding.format.hasRs2
  clearRd := !op.encoding.format.hasRd
  validateCsr := op = .csrrw
  bits := familyBits (op.familyMask supportSigned)

/-- The arms of a machine are the arms of its operations. -/
theorem machineArms_eq (supportSigned : Bool) :
    ((opcodesForFullMachineWithMemWordAccessSpecialization supportSigned).flatMap fun decoder =>
      decoder.arms.map fun arm => (some decoder, arm)) =
    (Operation.supported supportSigned).map fun op =>
      (op.decoder supportSigned, operationArm supportSigned op) := by
  cases supportSigned <;> rfl

/-- Two fixed fields that differ. -/
def fieldsDiffer {n : Nat} : Option (BitVec n) → Option (BitVec n) → Bool
  | some left, some right => left ≠ right
  | _, _ => false

/-- Two encodings that no word matches both of. -/
def encodingsDiffer (left right : Encoding) : Bool :=
  left.opcode ≠ right.opcode || fieldsDiffer left.funct3 right.funct3 ||
    fieldsDiffer left.funct7 right.funct7

theorem supported_pairwise (supportSigned : Bool) :
    ((Operation.supported supportSigned).map Operation.encoding).Pairwise
      fun left right => encodingsDiffer left right = true := by
  cases supportSigned <;> decide

section Words

variable {supportSigned : Bool} {op other : Operation} {word : U32}

/-- The arm of an operation covers the encodings of the operation. -/
theorem operationArm_covers_iff (member : op ∈ Operation.supported supportSigned) :
    (operationArm supportSigned op).Covers word ↔ op.Encodes word := by
  have decoded : op ≠ .ecall ∧ op ≠ .ebreak := by
    constructor
    · rintro rfl
      cases supportSigned <;> exact absurd member (by decide)
    · rintro rfl
      cases supportSigned <;> exact absurd member (by decide)
  simp only [DecoderArm.Covers, operationArm, Ir.getOpcodeBits_eq, Ir.funct3Bits_eq,
    Ir.funct7Bits_eq]
  cases op <;> first | exact Iff.rfl | exact absurd rfl decoded.1 | exact absurd rfl decoded.2

theorem not_fieldsDiffer {n : Nat} {left right : Option (BitVec n)} {value : BitVec n}
    (isLeft : ∀ field ∈ left, value = field) (isRight : ∀ field ∈ right, value = field) :
    fieldsDiffer left right = false := by
  cases left with
  | none => rfl
  | some leftField =>
      cases right with
      | none => rfl
      | some rightField =>
          have same : leftField = rightField :=
            (isLeft leftField rfl).symm.trans (isRight rightField rfl)
          simp only [fieldsDiffer, same, ne_eq, not_true_eq_false, decide_false]

/-- No word has two covering arms with different encodings. -/
theorem not_encodingsDiffer (left : (operationArm supportSigned op).Covers word)
    (right : (operationArm supportSigned other).Covers word) :
    encodingsDiffer op.encoding other.encoding = false := by
  rcases left with ⟨leftOpcode, leftFunct3, leftFunct7⟩
  rcases right with ⟨rightOpcode, rightFunct3, rightFunct7⟩
  have opcodes : op.encoding.opcode = other.encoding.opcode := leftOpcode.symm.trans rightOpcode
  have funct3s : fieldsDiffer op.encoding.funct3 other.encoding.funct3 = false :=
    not_fieldsDiffer leftFunct3 rightFunct3
  have funct7s : fieldsDiffer op.encoding.funct7 other.encoding.funct7 = false :=
    not_fieldsDiffer leftFunct7 rightFunct7
  simp only [encodingsDiffer, opcodes, funct3s, funct7s, ne_eq, not_true_eq_false, decide_false,
    Bool.or_self]

theorem fieldsDiffer_comm {n : Nat} (left right : Option (BitVec n)) :
    fieldsDiffer left right = fieldsDiffer right left := by
  cases left <;> cases right <;> simp [fieldsDiffer, eq_comm]

theorem encodingsDiffer_comm (left right : Encoding) :
    encodingsDiffer left right = encodingsDiffer right left := by
  have opcodes : decide (left.opcode ≠ right.opcode) = decide (right.opcode ≠ left.opcode) :=
    decide_eq_decide.mpr ne_comm
  rw [encodingsDiffer, opcodes, fieldsDiffer_comm left.funct3, fieldsDiffer_comm left.funct7]
  rfl

/-- A word encodes at most one supported operation. -/
theorem supported_unique (member : op ∈ Operation.supported supportSigned)
    (otherMember : other ∈ Operation.supported supportSigned)
    (covers : (operationArm supportSigned op).Covers word)
    (otherCovers : (operationArm supportSigned other).Covers word) : op = other := by
  by_contra different
  have pairwise := List.pairwise_map.mp (supported_pairwise supportSigned)
  have symmetric : Std.Symm fun left right : Operation =>
      encodingsDiffer left.encoding right.encoding = true :=
    ⟨fun left right differ => by rw [encodingsDiffer_comm]; exact differ⟩
  have differ := pairwise.forall member otherMember different
  rw [not_encodingsDiffer covers otherCovers] at differ
  exact Bool.false_ne_true differ

/-! ## What the decoders return -/

theorem parseImm_eq (format : Format) :
    format.instructionType.parseImm word false = format.immediate word := by
  cases format with
  | r => rfl
  | i => exact Ir.ITypeOpcode.imm_extended word
  | s => exact Ir.STypeOpcode.imm_extended word
  | b => exact Ir.BTypeOpcode.imm_extended word
  | u => exact Ir.UTypeOpcode.imm_eq word
  | j => exact Ir.JTypeOpcode.imm_extended word

theorem operationArm_imm (op : Operation) :
    op.encoding.format.instructionType.parseImm word (op = .csrrw) = op.immediate word := by
  by_cases isCsr : op = .csrrw
  · subst isCsr
    exact Ir.ITypeOpcode.imm_eq word
  · rw [decide_eq_false isCsr, parseImm_eq]
    cases op <;> first | rfl | exact absurd rfl isCsr

/-- An arm returns the fields of its operation. -/
theorem operationArm_decoded (covers : (operationArm supportSigned op).Covers word) :
    (operationArm supportSigned op).decoded word = (op.expected supportSigned word).data := by
  have noBranch : op.encoding.format.hasRd = true → op.encoding.opcode ≠ Ir.opcodeBranch := by
    cases op <;> decide
  have parsedRd : (if op.encoding.format.hasRd then
      (if Ir.getOpcodeBits word = Ir.opcodeBranch then 0 else Ir.getRdBits word) else 0) =
      if op.encoding.format.hasRd then rd word else 0 := by
    cases hasRd : op.encoding.format.hasRd with
    | false => rfl
    | true =>
        have notBranch : Ir.getOpcodeBits word ≠ Ir.opcodeBranch := by
          rw [covers.1]
          exact noBranch hasRd
        rw [if_pos rfl, if_pos rfl, if_neg notBranch, Ir.getRdBits_eq]
  have clear (has : Bool) (value : RegisterIndex) :
      (if (!has) = true then 0 else value) = if has = true then value else 0 := by
    cases has <;> rfl
  simp only [DecoderArm.decoded, operationArm, formallyParseRs1Rs2RdPropsForTracer,
    Operation.expected, clear, parsedRd, operationArm_imm, Ir.getFormalRs1Bits_eq,
    Ir.getFormalRs2Bits_eq, Ir.funct3Bits_eq, Ir.funct7Bits_eq]

theorem csr_eq_nonDeterminism_iff (word : U32) :
    (csr word).setWidth 32 = nonDeterminismCsr ↔ csr word = 0x7c0 := by
  constructor
  · intro same
    have narrow := congrArg (BitVec.setWidth 12) same
    rw [BitVec.setWidth_setWidth_of_le _ (by decide), BitVec.setWidth_eq] at narrow
    exact narrow
  · intro same
    rw [same]
    rfl

/-- The assertion of the CSR arm. -/
theorem asserts_csrrw (supportSigned : Bool) (word : U32) :
    DecoderArm.asserts (Operation.csrrw.expected supportSigned word).data = true ↔
      csr word = 0x7c0 ∨ rs1 word = 0 := by
  simp only [DecoderArm.asserts, Operation.expected, Operation.immediate,
    csr_eq_nonDeterminism_iff]
  by_cases isNonDeterminism : csr word = 0x7c0
  · rw [if_pos isNonDeterminism]
    simp [isNonDeterminism, Operation.encoding, Format.hasRs2]
  · rw [if_neg isNonDeterminism, or_iff_right isNonDeterminism]
    simp [Operation.encoding, Format.hasRs2, Format.hasRs1]

/-- An arm accepts the words of its operation, except for the asserts of `CSRRW`. -/
theorem operationArm_result (covers : (operationArm supportSigned op).Covers word) :
    (operationArm supportSigned op).result word =
      if op = .csrrw → csr word = 0x7c0 ∨ rs1 word = 0 then .ok (op.expected supportSigned word)
      else .panic := by
  rw [DecoderArm.result, operationArm_decoded covers]
  by_cases isCsr : op = .csrrw
  · subst isCsr
    have asserts := asserts_csrrw supportSigned word
    by_cases allowed : csr word = 0x7c0 ∨ rs1 word = 0
    · have passes := asserts.mpr allowed
      rw [if_pos fun _ => allowed, if_neg (by rw [passes]; simp)]
      rfl
    · have fails : DecoderArm.asserts (Operation.csrrw.expected supportSigned word).data = false :=
        Bool.eq_false_iff.mpr fun passes => allowed (asserts.mp passes)
      have refused : ¬ (Operation.csrrw = .csrrw → csr word = 0x7c0 ∨ rs1 word = 0) :=
        fun all => allowed (all rfl)
      rw [if_pos ⟨rfl, fails⟩, if_neg refused]
  · have unchecked : (operationArm supportSigned op).validateCsr = false := decide_eq_false isCsr
    rw [if_pos fun same => absurd same isCsr, if_neg (by rw [unchecked]; simp)]
    rfl

/-- An arm of a decoder of the machine is the arm of one of its operations. -/
theorem exists_operation {decoder : OpcodeFamilyDecoder} {arm : DecoderArm}
    (inMachine : decoder ∈ opcodesForFullMachineWithMemWordAccessSpecialization supportSigned)
    (inDecoder : arm ∈ decoder.arms) :
    ∃ op ∈ Operation.supported supportSigned, op.decoder supportSigned = some decoder ∧
      operationArm supportSigned op = arm := by
  have listed : (some decoder, arm) ∈
      (Operation.supported supportSigned).map fun op =>
        (op.decoder supportSigned, operationArm supportSigned op) := by
    rw [← machineArms_eq]
    exact List.mem_flatMap.mpr ⟨decoder, inMachine, List.mem_map.mpr ⟨arm, inDecoder, rfl⟩⟩
  rcases List.mem_map.mp listed with ⟨op, member, same⟩
  exact ⟨op, member, congrArg Prod.fst same, congrArg Prod.snd same⟩

theorem exists_decoder (member : op ∈ Operation.supported supportSigned) :
    ∃ decoder ∈ opcodesForFullMachineWithMemWordAccessSpecialization supportSigned,
      op.decoder supportSigned = some decoder ∧
        operationArm supportSigned op ∈ decoder.arms := by
  have listed : (op.decoder supportSigned, operationArm supportSigned op) ∈
      (opcodesForFullMachineWithMemWordAccessSpecialization supportSigned).flatMap fun decoder =>
        decoder.arms.map fun arm => (some decoder, arm) := by
    rw [machineArms_eq]
    exact List.mem_map.mpr ⟨op, member, rfl⟩
  rcases List.mem_flatMap.mp listed with ⟨decoder, inMachine, inDecoder⟩
  rcases List.mem_map.mp inDecoder with ⟨arm, inArms, same⟩
  rcases Prod.mk.inj same with ⟨belongs, rfl⟩
  exact ⟨decoder, inMachine, belongs.symm, inArms⟩

/-- The decoder of an operation returns what its arm returns. -/
theorem defineDecoderSubspace_eq {decoder : OpcodeFamilyDecoder}
    (inMachine : decoder ∈ opcodesForFullMachineWithMemWordAccessSpecialization supportSigned)
    (member : op ∈ Operation.supported supportSigned) (encodes : op.Encodes word)
    (belongs : op.decoder supportSigned = some decoder) :
    decoder.defineDecoderSubspace word = (operationArm supportSigned op).result word := by
  have covers := (operationArm_covers_iff member).mpr encodes
  rcases exists_decoder member with ⟨home, _, isHome, inArms⟩
  have sameDecoder : home = decoder := Option.some.inj (isHome.symm.trans belongs)
  rw [sameDecoder] at inArms
  unfold OpcodeFamilyDecoder.defineDecoderSubspace
  cases found : decoder.arms.find? (fun arm => arm.Covers word) with
  | none =>
      have missing := List.find?_eq_none.mp found _ inArms
      exact absurd (decide_eq_true covers) missing
  | some arm =>
      rcases exists_operation inMachine (List.mem_of_find?_eq_some found) with
        ⟨other, otherMember, _, rfl⟩
      have otherCovers := List.find?_some found
      rw [supported_unique otherMember member (of_decide_eq_true otherCovers) covers]

/-- A decoder that does not reject a word is the decoder of an operation that the word
encodes. -/
theorem defineDecoderSubspace_ne_err {decoder : OpcodeFamilyDecoder}
    (inMachine : decoder ∈ opcodesForFullMachineWithMemWordAccessSpecialization supportSigned)
    (decoded : decoder.defineDecoderSubspace word ≠ .err) :
    ∃ op ∈ Operation.supported supportSigned, op.Encodes word ∧
      op.decoder supportSigned = some decoder := by
  unfold OpcodeFamilyDecoder.defineDecoderSubspace at decoded
  cases found : decoder.arms.find? (fun arm => arm.Covers word) with
  | none =>
      rw [found] at decoded
      exact absurd rfl decoded
  | some arm =>
      rcases exists_operation inMachine (List.mem_of_find?_eq_some found) with
        ⟨op, member, belongs, rfl⟩
      have covers := List.find?_some found
      exact ⟨op, member, (operationArm_covers_iff member).mp (of_decide_eq_true covers), belongs⟩

end Words

/-! ## Separate tables -/

/-- The decoder returns `Ok`. -/
def OpcodeFamilyDecoder.Accepts (decoder : OpcodeFamilyDecoder) (word : U32) : Prop :=
  ∃ extended, decoder.defineDecoderSubspace word = .ok extended

section Tables

variable {family : OpcodeFamilyDecoder} {supportedCsrs : List U16} {binary : List U32}
  {table : List (Option DecoderTableEntry)} {pcSet : List Nat}

theorem accepts_of_entry {i : Nat} {word : U32} {entry : DecoderTableEntry}
    (produced : preprocessOpcode family supportedCsrs i word = some (some entry)) :
    family.Accepts word := by
  unfold preprocessOpcode at produced
  cases decoded : family.defineDecoderSubspace word with
  | ok extended => exact ⟨extended, decoded⟩
  | err =>
      rw [decoded] at produced
      cases produced
  | panic =>
      rw [decoded] at produced
      cases produced

/-- Every entry of a table stands at the position of a word that the family accepts. -/
theorem decoderTable_entry {i : Nat} (built : decoderTable family supportedCsrs i binary =
      some table) {j : Nat} {entry : DecoderTableEntry} (stands : table[j]? = some (some entry)) :
    ∃ word, binary[j]? = some word ∧ family.Accepts word := by
  induction binary generalizing i j table with
  | nil =>
      cases built
      simp at stands
  | cons word binary hypothesis =>
      simp only [decoderTable, Option.bind_eq_bind, Option.bind_eq_some_iff,
        Option.some.injEq] at built
      rcases built with ⟨first, produced, rest, builtRest, rfl⟩
      cases j with
      | zero =>
          simp only [List.getElem?_cons_zero, Option.some.injEq] at stands
          rw [stands] at produced
          exact ⟨word, rfl, accepts_of_entry produced⟩
      | succ j => exact hypothesis builtRest stands

/-- The assertion fails only at a position that was there before the table. -/
theorem insertPositions_eq_none {i : Nat} (failed : insertPositions i table pcSet = none) :
    ∃ j entry, table[j]? = some (some entry) ∧ i + j ∈ pcSet := by
  induction table generalizing i pcSet with
  | nil => cases failed
  | cons first table hypothesis =>
      cases first with
      | none =>
          rcases hypothesis failed with ⟨j, entry, stands, member⟩
          exact ⟨j + 1, entry, stands, by rwa [Nat.add_assoc, Nat.add_comm 1] at member⟩
      | some entry =>
          by_cases present : i ∈ pcSet
          · exact ⟨0, entry, rfl, present⟩
          · rw [insertPositions, if_neg present] at failed
            rcases hypothesis failed with ⟨j, other, stands, member⟩
            rw [Nat.add_assoc, Nat.add_comm 1] at member
            refine ⟨j + 1, other, stands, ?_⟩
            exact (List.mem_cons.mp member).resolve_left (by omega)

theorem insertPositions_mem {i : Nat} {inserted : List Nat}
    (done : insertPositions i table pcSet = some inserted) {k : Nat} (member : k ∈ inserted) :
    k ∈ pcSet ∨ ∃ j entry, table[j]? = some (some entry) ∧ k = i + j := by
  induction table generalizing i pcSet with
  | nil =>
      cases done
      exact Or.inl member
  | cons first table hypothesis =>
      cases first with
      | none =>
          rcases hypothesis done with before | ⟨j, entry, stands, rfl⟩
          · exact Or.inl before
          · exact Or.inr ⟨j + 1, entry, stands, by omega⟩
      | some entry =>
          by_cases present : i ∈ pcSet
          · rw [insertPositions, if_pos present] at done
            cases done
          · rw [insertPositions, if_neg present] at done
            rcases hypothesis done with before | ⟨j, other, stands, rfl⟩
            · rcases List.mem_cons.mp before with rfl | before
              · exact Or.inr ⟨0, entry, rfl, rfl⟩
              · exact Or.inl before
            · exact Or.inr ⟨j + 1, other, stands, by omega⟩

/-- Families of which no two accept a word have separate tables: the positions found so far
belong to families that are done. -/
theorem processFamilies_unique {done families : List OpcodeFamilyDecoder}
    (distinct : (done ++ families).Pairwise fun left right =>
      ∀ word, left.Accepts word → ¬ right.Accepts word)
    (found : ∀ i ∈ pcSet, ∃ word, binary[i]? = some word ∧ ∃ family ∈ done, family.Accepts word) :
    processFamilies supportedCsrs binary families pcSet ≠ .error .notUnique := by
  induction families generalizing done pcSet with
  | nil => simp [processFamilies]
  | cons family families hypothesis =>
      unfold processFamilies
      cases built : decoderTable family supportedCsrs 0 binary with
      | none => simp
      | some table =>
          simp only
          cases inserted : insertPositions 0 table pcSet with
          | none =>
              rcases insertPositions_eq_none inserted with ⟨j, entry, stands, member⟩
              rw [Nat.zero_add] at member
              rcases decoderTable_entry built stands with ⟨word, atWord, accepts⟩
              rcases found j member with ⟨other, atOther, earlier, isDone, earlierAccepts⟩
              have sameWord : other = word := Option.some.inj (atOther.symm.trans atWord)
              rw [sameWord] at earlierAccepts
              have apart := (List.pairwise_append.mp distinct).2.2 earlier isDone family
                List.mem_cons_self
              exact absurd accepts (apart word earlierAccepts)
          | some positions =>
              have rest : processFamilies supportedCsrs binary families positions ≠
                  .error .notUnique := by
                have apart : ((done ++ [family]) ++ families).Pairwise fun left right =>
                    ∀ word, left.Accepts word → ¬ right.Accepts word := by
                  rw [List.append_assoc]
                  exact distinct
                apply hypothesis apart
                intro i member
                rcases insertPositions_mem inserted member with before | ⟨j, entry, stands, rfl⟩
                · rcases found i before with ⟨word, atWord, earlier, isDone, accepts⟩
                  exact ⟨word, atWord, earlier, List.mem_append_left _ isDone, accepts⟩
                · rcases decoderTable_entry built stands with ⟨word, atWord, accepts⟩
                  rw [Nat.zero_add]
                  exact ⟨word, atWord, family, by simp, accepts⟩
              cases outcome : processFamilies supportedCsrs binary families positions with
              | error panic =>
                  intro same
                  rw [outcome] at rest
                  simp only [outcome] at same
                  exact rest same
              | ok result =>
                  intro same
                  simp only [outcome] at same
                  cases same

end Tables

/-! ## Tiling -/

section Tiling

variable {supportSigned : Bool} {decoder : OpcodeFamilyDecoder} {word : U32}

/-- A decoder of the machine returns `Ok` exactly on the accepted words of its operations, and
then it returns the fields of the encoding. -/
theorem defineDecoderSubspace_eq_ok_iff
    (inMachine : decoder ∈ opcodesForFullMachineWithMemWordAccessSpecialization supportSigned)
    {extended : ExecutorFamilyDecoderExtendedData} :
    decoder.defineDecoderSubspace word = .ok extended ↔
      ∃ op ∈ Operation.supported supportSigned, op.Accepted word ∧
        op.decoder supportSigned = some decoder ∧ extended = op.expected supportSigned word := by
  constructor
  · intro decoded
    have accepted : decoder.defineDecoderSubspace word ≠ .err := by
      rw [decoded]
      simp
    rcases defineDecoderSubspace_ne_err inMachine accepted with ⟨op, member, encodes, belongs⟩
    have covers := (operationArm_covers_iff member).mpr encodes
    rw [defineDecoderSubspace_eq inMachine member encodes belongs,
      operationArm_result covers] at decoded
    by_cases allowed : op = .csrrw → csr word = 0x7c0 ∨ rs1 word = 0
    · rw [if_pos allowed] at decoded
      cases decoded
      exact ⟨op, member, ⟨encodes, allowed⟩, belongs, rfl⟩
    · rw [if_neg allowed] at decoded
      cases decoded
  · rintro ⟨op, member, ⟨encodes, allowed⟩, belongs, rfl⟩
    have covers := (operationArm_covers_iff member).mpr encodes
    rw [defineDecoderSubspace_eq inMachine member encodes belongs, operationArm_result covers,
      if_pos allowed]

/-- The only words on which a decoder of the machine fails an assertion. -/
theorem defineDecoderSubspace_eq_panic_iff
    (inMachine : decoder ∈ opcodesForFullMachineWithMemWordAccessSpecialization supportSigned) :
    decoder.defineDecoderSubspace word = .panic ↔
      decoder = .shiftBinaryCsrrwDecoder ∧ Operation.csrrw.Encodes word ∧
        csr word ≠ 0x7c0 ∧ rs1 word ≠ 0 := by
  constructor
  · intro decoded
    have accepted : decoder.defineDecoderSubspace word ≠ .err := by
      rw [decoded]
      simp
    rcases defineDecoderSubspace_ne_err inMachine accepted with ⟨op, member, encodes, belongs⟩
    have covers := (operationArm_covers_iff member).mpr encodes
    rw [defineDecoderSubspace_eq inMachine member encodes belongs,
      operationArm_result covers] at decoded
    by_cases isCsr : op = .csrrw
    · subst isCsr
      by_cases allowed : csr word = 0x7c0 ∨ rs1 word = 0
      · rw [if_pos fun _ => allowed] at decoded
        cases decoded
      · rw [not_or] at allowed
        exact ⟨(Option.some.inj belongs).symm, encodes, allowed⟩
    · rw [if_pos fun same => absurd same isCsr] at decoded
      cases decoded
  · rintro ⟨rfl, encodes, wrongCsr, reads⟩
    have member : Operation.csrrw ∈ Operation.supported supportSigned := by
      cases supportSigned <;> decide
    have covers := (operationArm_covers_iff member).mpr encodes
    have refused : ¬ (Operation.csrrw = .csrrw → csr word = 0x7c0 ∨ rs1 word = 0) :=
      fun all => (all rfl).elim wrongCsr reads
    rw [defineDecoderSubspace_eq inMachine member encodes rfl, operationArm_result covers,
      if_neg refused]

/-- Two decoders of the machine do not accept one word. -/
theorem accepts_unique {left right : OpcodeFamilyDecoder}
    (inLeft : left ∈ opcodesForFullMachineWithMemWordAccessSpecialization supportSigned)
    (inRight : right ∈ opcodesForFullMachineWithMemWordAccessSpecialization supportSigned)
    (isLeft : left.Accepts word) (isRight : right.Accepts word) : left = right := by
  rcases isLeft with ⟨leftExtended, leftDecoded⟩
  rcases isRight with ⟨rightExtended, rightDecoded⟩
  rcases (defineDecoderSubspace_eq_ok_iff inLeft).mp leftDecoded with
    ⟨op, member, accepted, belongs, _⟩
  rcases (defineDecoderSubspace_eq_ok_iff inRight).mp rightDecoded with
    ⟨other, otherMember, otherAccepted, otherBelongs, _⟩
  have same : op = other := supported_unique member otherMember
    ((operationArm_covers_iff member).mpr accepted.1)
    ((operationArm_covers_iff otherMember).mpr otherAccepted.1)
  rw [same, otherBelongs] at belongs
  exact (Option.some.inj belongs).symm

/-- Some decoder of the machine accepts exactly the accepted words of its operations. -/
theorem accepts_iff :
    (∃ decoder ∈ opcodesForFullMachineWithMemWordAccessSpecialization supportSigned,
      decoder.Accepts word) ↔
      ∃ op ∈ Operation.supported supportSigned, op.Accepted word := by
  constructor
  · rintro ⟨decoder, inMachine, extended, decoded⟩
    rcases (defineDecoderSubspace_eq_ok_iff inMachine).mp decoded with ⟨op, member, accepted, _⟩
    exact ⟨op, member, accepted⟩
  · rintro ⟨op, member, accepted⟩
    rcases exists_decoder member with ⟨decoder, inMachine, belongs, _⟩
    exact ⟨decoder, inMachine, op.expected supportSigned word,
      (defineDecoderSubspace_eq_ok_iff inMachine).mpr ⟨op, member, accepted, belongs, rfl⟩⟩

/-- The decoders of a machine are pairwise disjoint. -/
theorem machine_pairwise (supportSigned : Bool) :
    (opcodesForFullMachineWithMemWordAccessSpecialization supportSigned).Pairwise
      fun left right => ∀ word, left.Accepts word → ¬ right.Accepts word := by
  have distinct : (opcodesForFullMachineWithMemWordAccessSpecialization supportSigned).Nodup := by
    cases supportSigned <;> decide
  apply distinct.imp_of_mem
  intro left right inLeft inRight different word isLeft isRight
  exact different (accepts_unique inLeft inRight isLeft isRight)

/-- The assertion that a position is new never fails. -/
theorem processBinary_unique (supportSigned allowUnsupported : Bool) (binary : List U32)
    (supportedCsrs : List U16) :
    processBinaryIntoSeparateTablesExt allowUnsupported binary
      (opcodesForFullMachineWithMemWordAccessSpecialization supportSigned) supportedCsrs ≠
        .error .notUnique := by
  have families : processFamilies supportedCsrs binary
      (opcodesForFullMachineWithMemWordAccessSpecialization supportSigned) [] ≠
        .error .notUnique := by
    apply @processFamilies_unique supportedCsrs binary [] []
    · exact machine_pairwise supportSigned
    · intro i member
      exact absurd member List.not_mem_nil
  intro failed
  unfold processBinaryIntoSeparateTablesExt at failed
  cases processed : processFamilies supportedCsrs binary
      (opcodesForFullMachineWithMemWordAccessSpecialization supportSigned) [] with
  | error panic =>
      rw [processed] at failed families
      cases failed
      exact families rfl
  | ok result =>
      rw [processed] at failed
      simp only [bind, Except.bind] at failed
      split at failed
      · cases failed
      · cases failed

end Tiling

/-- The decoders of a machine tile the encodings of its operations: they are disjoint, they
accept exactly these encodings, and they return their fields. -/
theorem decoders_tile (supportSigned : Bool) :
    (∀ word, ∀ left ∈ opcodesForFullMachineWithMemWordAccessSpecialization supportSigned,
      ∀ right ∈ opcodesForFullMachineWithMemWordAccessSpecialization supportSigned,
        left.Accepts word → right.Accepts word → left = right) ∧
    (∀ allowUnsupported binary supportedCsrs,
      processBinaryIntoSeparateTablesExt allowUnsupported binary
        (opcodesForFullMachineWithMemWordAccessSpecialization supportSigned) supportedCsrs ≠
          .error .notUnique) ∧
    (∀ word, (∃ decoder ∈ opcodesForFullMachineWithMemWordAccessSpecialization supportSigned,
      decoder.Accepts word) ↔ ∃ op ∈ Operation.supported supportSigned, op.Accepted word) ∧
    (∀ word, ∀ decoder ∈ opcodesForFullMachineWithMemWordAccessSpecialization supportSigned,
      decoder.defineDecoderSubspace word = .panic ↔
        decoder = .shiftBinaryCsrrwDecoder ∧ Operation.csrrw.Encodes word ∧
          csr word ≠ 0x7c0 ∧ rs1 word ≠ 0) ∧
    (∀ word, ∀ decoder ∈ opcodesForFullMachineWithMemWordAccessSpecialization supportSigned,
      ∀ extended, decoder.defineDecoderSubspace word = .ok extended →
        ∃ op ∈ Operation.supported supportSigned, op.Accepted word ∧
          op.decoder supportSigned = some decoder ∧
          extended = op.expected supportSigned word) := by
  refine ⟨?_, ?_, ?_, ?_, ?_⟩
  · intro word left inLeft right inRight isLeft isRight
    exact accepts_unique inLeft inRight isLeft isRight
  · intro allowUnsupported binary supportedCsrs
    exact processBinary_unique supportSigned allowUnsupported binary supportedCsrs
  · intro word
    exact accepts_iff
  · intro word decoder inMachine
    exact defineDecoderSubspace_eq_panic_iff inMachine
  · intro word decoder inMachine extended decoded
    exact (defineDecoderSubspace_eq_ok_iff inMachine).mp decoded

/-- A fence is a base instruction that no decoder accepts, and a `CSRRW` of the CSR `0x7c1`, which
is not that of the non-determinism, fails an assertion when it reads a register. -/
theorem fence_and_csrrw_refused :
    (Operation.fence.Encodes 0x0000000f ∧
      ∀ supportSigned,
        ∀ decoder ∈ opcodesForFullMachineWithMemWordAccessSpecialization supportSigned,
          decoder.defineDecoderSubspace 0x0000000f = .err) ∧
    (Operation.csrrw.Encodes 0x7c151073 ∧
      OpcodeFamilyDecoder.shiftBinaryCsrrwDecoder.defineDecoderSubspace 0x7c151073 = .panic) := by
  refine ⟨⟨⟨rfl, by decide, by decide⟩, ?_⟩, ⟨rfl, by decide, by decide⟩, rfl⟩
  intro supportSigned
  cases supportSigned <;> decide

end Circuit

end Airbender
