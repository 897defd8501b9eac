import Airbender.Circuit.Field
import Airbender.Ir.Decode

/-!
# Decoders of the circuit families

Every machine circuit has its own decoder, a match on opcode, `funct3` and `funct7`.  The
arms of a match are kept as a list in the order of the source.
-/

namespace Airbender.Circuit

open Ir

/-! ## Decoded data -/

inductive InstructionType where
  | rType
  | iType
  | jType
  | uType
  | bType
  | sType
deriving DecidableEq, Repr

def InstructionType.parseImm (opcode : U32) (avoidITypeSignExtend : Bool) :
    InstructionType → U32
  | .rType => 0
  | .iType =>
      if avoidITypeSignExtend then ITypeOpcode.imm opcode
      else signExtend (ITypeOpcode.imm opcode) 12
  | .jType => signExtend (JTypeOpcode.imm opcode) 21
  | .uType => UTypeOpcode.imm opcode
  | .bType => signExtend (BTypeOpcode.imm opcode) 13
  | .sType => signExtend (STypeOpcode.imm opcode) 12

structure ExecutorFamilyDecoderData where
  imm : U32
  rs1Index : RegisterIndex
  rs2Index : RegisterIndex
  rdIndex : RegisterIndex
  rdIsZero : Bool
  funct3 : BitVec 3
  funct7 : Option (BitVec 7)
  opcodeFamilyBits : U32
deriving DecidableEq, Repr

structure ExecutorFamilyDecoderExtendedData where
  data : ExecutorFamilyDecoderData
  instructionFormat : InstructionType
  validateCsrIndexInImmediate : Bool
deriving DecidableEq, Repr

/-- `Result` of a decoder that may also fail an `assert!`. -/
inductive DecoderResult where
  | ok (extended : ExecutorFamilyDecoderExtendedData)
  | err
  | panic
deriving DecidableEq, Repr

/-- The branch opcode is the only one whose destination field is cleared here. -/
def formallyParseRs1Rs2RdPropsForTracer (opcode : U32) :
    RegisterIndex × RegisterIndex × RegisterIndex :=
  (getFormalRs1Bits opcode, getFormalRs2Bits opcode,
    if getOpcodeBits opcode = opcodeBranch then 0 else getRdBits opcode)

/-! ## Arms of a decoder -/

/-- One arm of a decoder's match: its pattern, where `none` is a wildcard, the register
indices it clears, and the bits it sets. -/
structure DecoderArm where
  op : BitVec 7
  funct3 : Option (BitVec 3)
  funct7 : Option (BitVec 7)
  instructionType : InstructionType
  clearRs1 : Bool
  clearRs2 : Bool
  clearRd : Bool
  validateCsr : Bool
  bits : U32
deriving DecidableEq, Repr

namespace DecoderArm

def rType (op : BitVec 7) (funct3 : BitVec 3) (funct7 : BitVec 7) (bits : U32) : DecoderArm :=
  ⟨op, some funct3, some funct7, .rType, false, false, false, false, bits⟩

def iType (op : BitVec 7) (funct3 : BitVec 3) (funct7 : Option (BitVec 7)) (bits : U32) :
    DecoderArm :=
  ⟨op, some funct3, funct7, .iType, false, true, false, false, bits⟩

def uType (op : BitVec 7) (bits : U32) : DecoderArm :=
  ⟨op, none, none, .uType, true, true, false, false, bits⟩

def jType (op : BitVec 7) (bits : U32) : DecoderArm :=
  ⟨op, none, none, .jType, true, true, false, false, bits⟩

def bType (op : BitVec 7) (funct3 : BitVec 3) (bits : U32) : DecoderArm :=
  ⟨op, some funct3, none, .bType, false, false, true, false, bits⟩

def sType (op : BitVec 7) (funct3 : BitVec 3) (bits : U32) : DecoderArm :=
  ⟨op, some funct3, none, .sType, false, false, true, false, bits⟩

/-- The CSR arm keeps the CSR index unextended and asks for its validation. -/
def csr (op : BitVec 7) (funct3 : BitVec 3) (bits : U32) : DecoderArm :=
  ⟨op, some funct3, none, .iType, false, true, false, true, bits⟩

/-- The pattern of an arm covers a word. -/
def Covers (arm : DecoderArm) (opcode : U32) : Prop :=
  getOpcodeBits opcode = arm.op ∧ (∀ funct3 ∈ arm.funct3, funct3Bits opcode = funct3) ∧
    ∀ funct7 ∈ arm.funct7, funct7Bits opcode = funct7

instance (arm : DecoderArm) (opcode : U32) : Decidable (arm.Covers opcode) :=
  inferInstanceAs (Decidable (_ ∧ (∀ funct3 ∈ arm.funct3, _) ∧ ∀ funct7 ∈ arm.funct7, _))

/-- The data an arm returns for a word. -/
def decoded (arm : DecoderArm) (opcode : U32) : ExecutorFamilyDecoderData :=
  let (formalRs1, formalRs2, formalRd) := formallyParseRs1Rs2RdPropsForTracer opcode
  let rdIndex := if arm.clearRd then 0 else formalRd
  { imm := arm.instructionType.parseImm opcode arm.validateCsr
    rs1Index := if arm.clearRs1 then 0 else formalRs1
    rs2Index := if arm.clearRs2 then 0 else formalRs2
    rdIndex := rdIndex
    rdIsZero := rdIndex = 0
    funct3 := funct3Bits opcode
    funct7 := some (funct7Bits opcode)
    opcodeFamilyBits := arm.bits }

/-- The assertions of the CSR arm; the index of the second register is already cleared. -/
def asserts (data : ExecutorFamilyDecoderData) : Bool :=
  if data.imm = nonDeterminismCsr then data.rs1Index = 0 ∨ data.rs2Index = 0
  else data.rs1Index = 0 ∧ data.rs2Index = 0

def result (arm : DecoderArm) (opcode : U32) : DecoderResult :=
  let data := arm.decoded opcode
  if arm.validateCsr ∧ asserts data = false then .panic
  else .ok
    { data := data
      instructionFormat := arm.instructionType
      validateCsrIndexInImmediate := arm.validateCsr }

end DecoderArm

/-! ## The families -/

def addOpBit : Nat := 0

def addiOpBit : Nat := 1

def subOpBit : Nat := 2

def luiOpBit : Nat := 3

def auipcOpBit : Nat := 4

def addmodBit : Nat := 5

def submodBit : Nat := 6

def mulmodBit : Nat := 7

def jalBit : Nat := 0

def jalrBit : Nat := 1

def sltBit : Nat := 2

def sltiBit : Nat := 3

def branchBit : Nat := 4

def sllBit : Nat := 0

def srlBit : Nat := 1

def sraBit : Nat := 2

def binaryOpBit : Nat := 3

def csrrwBit : Nat := 4

def useImmBit : Nat := 5

def isDivisionBit : Nat := 0

def mulDivDivu : Nat := 1

def unsignedMulDivu : Nat := 1

def mulMulhMulhsuDivRem : Nat := 2

def mulMulhDivRem : Nat := 3

def writeBit : Nat := 0

/-- The mask with the given bits set. -/
def familyBits (bits : List Nat) : U32 :=
  bits.foldl (fun repr bit => repr ||| ((1 : U32) <<< bit)) 0

open DecoderArm in
def addSubLuiAuipcMopArms : List DecoderArm :=
  [rType opSubmask 0b000 0b0000000 (familyBits [addOpBit]),
    iType opImmSubmask 0b000 none (familyBits [addiOpBit]),
    rType opSubmask 0b000 0b0100000 (familyBits [subOpBit]),
    uType opcodeLui (familyBits [luiOpBit]),
    uType opcodeAuipc (familyBits [auipcOpBit]),
    rType opcodeSystem 0b100 0b1000001 (familyBits [addmodBit]),
    rType opcodeSystem 0b100 0b1000011 (familyBits [submodBit]),
    rType opcodeSystem 0b100 0b1000101 (familyBits [mulmodBit])]

/-- Arms with a `SUPPORT_SIGNED` guard. -/
def ifSigned (supportSigned : Bool) (arm : DecoderArm) : List DecoderArm :=
  if supportSigned then [arm] else []

open DecoderArm in
def jumpSltBranchArms (supportSigned : Bool) : List DecoderArm :=
  [jType opcodeJal (familyBits [jalBit]),
    iType opcodeJalr 0b000 none (familyBits [jalrBit])] ++
  ifSigned supportSigned (iType opImmSubmask 0b010 none (familyBits [sltiBit])) ++
  [iType opImmSubmask 0b011 none (familyBits [sltiBit])] ++
  ifSigned supportSigned (rType opSubmask 0b010 0 (familyBits [sltBit])) ++
  [rType opSubmask 0b011 0 (familyBits [sltBit]),
    bType opcodeBranch 0b000 (familyBits [branchBit]),
    bType opcodeBranch 0b001 (familyBits [branchBit])] ++
  ifSigned supportSigned (bType opcodeBranch 0b100 (familyBits [branchBit])) ++
  ifSigned supportSigned (bType opcodeBranch 0b101 (familyBits [branchBit])) ++
  [bType opcodeBranch 0b110 (familyBits [branchBit]),
    bType opcodeBranch 0b111 (familyBits [branchBit])]

open DecoderArm in
def shiftBinaryCsrrwArms : List DecoderArm :=
  [iType opImmSubmask 0b001 (some 0) (familyBits [sllBit, useImmBit]),
    iType opImmSubmask 0b101 (some 0) (familyBits [srlBit, useImmBit]),
    iType opImmSubmask 0b101 (some 0b0100000) (familyBits [sraBit, useImmBit]),
    rType opSubmask 0b001 0 (familyBits [sllBit]),
    rType opSubmask 0b101 0 (familyBits [srlBit]),
    rType opSubmask 0b101 0b0100000 (familyBits [sraBit]),
    rType opSubmask 0b111 0b0000000 (familyBits [binaryOpBit]),
    iType opImmSubmask 0b111 none (familyBits [binaryOpBit, useImmBit]),
    rType opSubmask 0b110 0b0000000 (familyBits [binaryOpBit]),
    iType opImmSubmask 0b110 none (familyBits [binaryOpBit, useImmBit]),
    rType opSubmask 0b100 0b0000000 (familyBits [binaryOpBit]),
    iType opImmSubmask 0b100 none (familyBits [binaryOpBit, useImmBit]),
    csr opcodeSystem 0b001 (familyBits [csrrwBit])]

open DecoderArm in
def wordOnlyMemoryArms : List DecoderArm :=
  [iType opcodeLoad 0b010 none (familyBits []),
    sType opcodeStore 0b010 (familyBits [writeBit])]

open DecoderArm in
def subwordOnlyMemoryArms : List DecoderArm :=
  [iType opcodeLoad 0b000 none (familyBits []),
    iType opcodeLoad 0b001 none (familyBits []),
    iType opcodeLoad 0b100 none (familyBits []),
    iType opcodeLoad 0b101 none (familyBits []),
    sType opcodeStore 0b000 (familyBits [writeBit]),
    sType opcodeStore 0b001 (familyBits [writeBit])]

open DecoderArm in
def divMulArms (supportSigned : Bool) : List DecoderArm :=
  [rType opSubmask 0b000 mExtFunct7
      (if supportSigned then familyBits [mulMulhMulhsuDivRem, mulMulhDivRem, mulDivDivu]
        else familyBits [unsignedMulDivu])] ++
  ifSigned supportSigned
    (rType opSubmask 0b001 mExtFunct7 (familyBits [mulMulhMulhsuDivRem, mulMulhDivRem])) ++
  ifSigned supportSigned (rType opSubmask 0b010 mExtFunct7 (familyBits [mulMulhMulhsuDivRem])) ++
  [rType opSubmask 0b011 mExtFunct7 (familyBits [])] ++
  ifSigned supportSigned
    (rType opSubmask 0b100 mExtFunct7
      (familyBits [isDivisionBit, mulMulhMulhsuDivRem, mulMulhDivRem, mulDivDivu])) ++
  [rType opSubmask 0b101 mExtFunct7
      (if supportSigned then familyBits [isDivisionBit, mulDivDivu]
        else familyBits [isDivisionBit, unsignedMulDivu])] ++
  ifSigned supportSigned
    (rType opSubmask 0b110 mExtFunct7
      (familyBits [isDivisionBit, mulMulhMulhsuDivRem, mulMulhDivRem])) ++
  [rType opSubmask 0b111 mExtFunct7 (familyBits [isDivisionBit])]

inductive OpcodeFamilyDecoder where
  | addSubLuiAuipcMopDecoder
  | jumpSltBranchDecoder (supportSigned : Bool)
  | shiftBinaryCsrrwDecoder
  | wordOnlyMemoryFamilyDecoder
  | subwordOnlyMemoryFamilyDecoder
  | divMulDecoder (supportSigned : Bool)
deriving DecidableEq, Repr

namespace OpcodeFamilyDecoder

def arms : OpcodeFamilyDecoder → List DecoderArm
  | addSubLuiAuipcMopDecoder => addSubLuiAuipcMopArms
  | jumpSltBranchDecoder supportSigned => jumpSltBranchArms supportSigned
  | shiftBinaryCsrrwDecoder => shiftBinaryCsrrwArms
  | wordOnlyMemoryFamilyDecoder => wordOnlyMemoryArms
  | subwordOnlyMemoryFamilyDecoder => subwordOnlyMemoryArms
  | divMulDecoder supportSigned => divMulArms supportSigned

def instructionFamilyIndex : OpcodeFamilyDecoder → CircuitFamily
  | addSubLuiAuipcMopDecoder => .addSubLuiAuipcMop
  | jumpSltBranchDecoder _ => .jumpBranchSlt
  | shiftBinaryCsrrwDecoder => .shiftBinaryCsr
  | wordOnlyMemoryFamilyDecoder => .loadStoreWordOnly
  | subwordOnlyMemoryFamilyDecoder => .loadStoreSubwordOnly
  | divMulDecoder _ => .mulDiv

/-- The first arm that covers the word decides. -/
def defineDecoderSubspace (decoder : OpcodeFamilyDecoder) (opcode : U32) : DecoderResult :=
  match decoder.arms.find? (fun arm => arm.Covers opcode) with
  | some arm => arm.result opcode
  | none => .err

end OpcodeFamilyDecoder

/-- The machine whose memory circuits are split by access width, by its division circuit. -/
def opcodesForFullMachineWithMemWordAccessSpecialization (supportSigned : Bool) :
    List OpcodeFamilyDecoder :=
  [.addSubLuiAuipcMopDecoder, .jumpSltBranchDecoder true, .shiftBinaryCsrrwDecoder,
    .wordOnlyMemoryFamilyDecoder, .subwordOnlyMemoryFamilyDecoder, .divMulDecoder supportSigned]

/-! ## Decoder tables -/

structure DecoderTableEntry where
  pcLow : F
  pcHigh : F
  rs1Index : F
  rs2Index : F
  rdIndex : F
  rdIsZero : F
  immLow : F
  immHigh : F
  funct3 : F
  circuitFamilyExtraMask : F
deriving DecidableEq

/-- The row of the decoder table for a word at position `i`. -/
def ExecutorFamilyDecoderData.entry (data : ExecutorFamilyDecoderData) (i : Nat) :
    DecoderTableEntry where
  pcLow := ((4 * i % 2 ^ 16 : Nat) : F)
  pcHigh := ((4 * i / 2 ^ 16 % 2 ^ 16 : Nat) : F)
  rs1Index := (data.rs1Index.toNat : F)
  rs2Index := (data.rs2Index.toNat : F)
  rdIndex := (data.rdIndex.toNat : F)
  rdIsZero := fromBoolean data.rdIsZero
  immLow := fromLimb (splitU32IntoPairU16 data.imm).1
  immHigh := fromLimb (splitU32IntoPairU16 data.imm).2
  funct3 := (data.funct3.toNat : F)
  circuitFamilyExtraMask := (data.opcodeFamilyBits.toNat : F)

/-- One step of `preprocess_bytecode` of the circuits: `none` is a panic, `some none` a word
the family does not prove. -/
def preprocessOpcode (family : OpcodeFamilyDecoder) (supportedCsrs : List U16) (i : Nat)
    (opcode : U32) : Option (Option DecoderTableEntry) :=
  match family.defineDecoderSubspace opcode with
  | .panic => none
  | .err => some none
  | .ok extended =>
      if extended.validateCsrIndexInImmediate ∧
          extended.data.imm.setWidth 16 ∉ supportedCsrs then
        some none
      else
        some (some (extended.data.entry i))

/-- The table of a family, from position `i` of the binary on. -/
def decoderTable (family : OpcodeFamilyDecoder) (supportedCsrs : List U16) :
    Nat → List U32 → Option (List (Option DecoderTableEntry))
  | _, [] => some []
  | i, opcode :: binary => do
      let entry ← preprocessOpcode family supportedCsrs i opcode
      let table ← decoderTable family supportedCsrs (i + 1) binary
      some (entry :: table)

/-- The loop over a table that asserts that no position was inserted before. -/
def insertPositions : Nat → List (Option DecoderTableEntry) → List Nat → Option (List Nat)
  | _, [], pcSet => some pcSet
  | i, none :: table, pcSet => insertPositions (i + 1) table pcSet
  | i, some _ :: table, pcSet =>
      if i ∈ pcSet then none else insertPositions (i + 1) table (i :: pcSet)

/-- The ways `process_binary_into_separate_tables_ext` panics on a binary that fits. -/
inductive ProcessPanic where
  | decoderAssert
  | notUnique
  | unsupported
deriving DecidableEq, Repr

/-- The loop over the families: their tables and the positions found so far. -/
def processFamilies (supportedCsrs : List U16) (binary : List U32) :
    List OpcodeFamilyDecoder → List Nat →
      Except ProcessPanic (List (List (Option DecoderTableEntry)) × List Nat)
  | [], pcSet => .ok ([], pcSet)
  | family :: families, pcSet =>
      match decoderTable family supportedCsrs 0 binary with
      | none => .error .decoderAssert
      | some table =>
          match insertPositions 0 table pcSet with
          | none => .error .notUnique
          | some pcSet => do
              let (tables, pcSet) ← processFamilies supportedCsrs binary families pcSet
              .ok (table :: tables, pcSet)

def processBinaryIntoSeparateTablesExt (allowUnsupported : Bool) (binary : List U32)
    (families : List OpcodeFamilyDecoder) (supportedCsrs : List U16) :
    Except ProcessPanic (List (List (Option DecoderTableEntry))) := do
  let (tables, pcSet) ← processFamilies supportedCsrs binary families []
  if allowUnsupported = false ∧ pcSet.length ≠ binary.length then .error .unsupported
  else .ok tables

end Airbender.Circuit
