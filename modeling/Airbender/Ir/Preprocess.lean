import Airbender.Ir.Decode

/-!
# Preprocessing of bytecode

The decoder of the executor.  Ordinary words become one instruction each, while
a run of identical Blake2s or Keccak delegation words is folded into a single
`ZicsrDelegation` at the position of its first word.
-/

namespace Airbender.Ir

open Instruction

/-! ## Decoding options -/

structure DecodingOptions where
  supportSubwordMemAccess : Bool
  supportMulDiv : Bool
  supportSignedMulDiv : Bool
  supportMop : Bool
deriving DecidableEq, Repr

def fullMachineDecoderConfig : DecodingOptions where
  supportMop := false
  supportMulDiv := true
  supportSignedMulDiv := true
  supportSubwordMemAccess := true

def fullUnsignedMachineDecoderConfig : DecodingOptions where
  supportMop := false
  supportMulDiv := true
  supportSignedMulDiv := false
  supportSubwordMemAccess := true

def reducedMachineDecoderConfig : DecodingOptions where
  supportMop := true
  supportMulDiv := false
  supportSignedMulDiv := false
  supportSubwordMemAccess := false

def debugReducedMachineDecoderConfig : DecodingOptions where
  supportMop := true
  supportMulDiv := false
  supportSignedMulDiv := false
  supportSubwordMemAccess := true

/-! ## Decoding one word -/

/-- What a word asks the preprocessor to do: emit one instruction, or look ahead
for the rest of a batched delegation. -/
inductive DecodedWord where
  | single (instruction : Instruction)
  | blakeRun
  | keccakRun
deriving DecidableEq, Repr

/-- An instruction that the configuration may leave out of the machine. -/
def ifSupported (supported : Bool) (instruction : Instruction) : Instruction :=
  if supported then instruction else illegalInstr

def decodeBranch (opcode : U32) : Option Instruction :=
  let imm := signExtend (BTypeOpcode.imm opcode) 13
  let funct3 := funct3Bits opcode
  match funct3 with
  | 0 | 1 | 4 | 5 | 6 | 7 =>
      -- the record has no room for `funct3`, so a branch keeps it in `rd`
      some (fromImm .branch (getFormalRs1Bits opcode) (getFormalRs2Bits opcode)
        (funct3.setWidth 5) imm)
  | _ => none

def decodeOpImm (opcode : U32) : Option Instruction :=
  let imm := signExtend (ITypeOpcode.imm opcode) 12
  let formalRs1 := getFormalRs1Bits opcode
  let rd := getRdBits opcode
  let funct7 := funct7Bits opcode
  match funct3Bits opcode with
  | 0b000 => some (fromImm .addi formalRs1 0 rd imm)
  | 0b001 =>
      if funct7 = sllFunct7 then
        some (fromImm .slli formalRs1 0 rd (imm &&& 0x1f))
      else
        none
  | 0b101 =>
      if funct7 = srlFunct7 then
        some (fromImm .srli formalRs1 0 rd (imm &&& 0x1f))
      else if funct7 = sraFunct7 then
        some (fromImm .srai formalRs1 0 rd (imm &&& 0x1f))
      else
        none
  | 0b010 => some (fromImm .slti formalRs1 0 rd imm)
  | 0b011 => some (fromImm .sltiu formalRs1 0 rd imm)
  | 0b100 => some (fromImm .xori formalRs1 0 rd imm)
  | 0b110 => some (fromImm .ori formalRs1 0 rd imm)
  | 0b111 => some (fromImm .andi formalRs1 0 rd imm)

/-- Multiplication extension. -/
def decodeMulDiv (opt : DecodingOptions) (opcode : U32) : Instruction :=
  let formalRs1 := getFormalRs1Bits opcode
  let formalRs2 := getFormalRs2Bits opcode
  let rd := getRdBits opcode
  let unsigned := opt.supportMulDiv
  let signed := opt.supportMulDiv && opt.supportSignedMulDiv
  match funct3Bits opcode with
  | 0b000 => ifSupported unsigned (fromImm .mul formalRs1 formalRs2 rd 0)
  | 0b001 => ifSupported signed (fromImm .mulh formalRs1 formalRs2 rd 0)
  | 0b010 => ifSupported signed (fromImm .mulhsu formalRs1 formalRs2 rd 0)
  | 0b011 => ifSupported unsigned (fromImm .mulhu formalRs1 formalRs2 rd 0)
  | 0b100 => ifSupported signed (fromImm .div formalRs1 formalRs2 rd 0)
  | 0b101 => ifSupported unsigned (fromImm .divu formalRs1 formalRs2 rd 0)
  | 0b110 => ifSupported signed (fromImm .rem formalRs1 formalRs2 rd 0)
  | 0b111 => ifSupported unsigned (fromImm .remu formalRs1 formalRs2 rd 0)

/-- Register-register operations outside the multiplication extension.  Only the
additive and the shift groups look at `funct7`. -/
def decodeBasicOp (opcode : U32) : Option Instruction :=
  let formalRs1 := getFormalRs1Bits opcode
  let formalRs2 := getFormalRs2Bits opcode
  let rd := getRdBits opcode
  let funct7 := funct7Bits opcode
  match funct3Bits opcode with
  | 0b000 =>
      if funct7 = 0 then
        some (fromImm .add formalRs1 formalRs2 rd 0)
      else if funct7 = subFunct7 then
        some (fromImm .sub formalRs1 formalRs2 rd 0)
      else
        none
  | 0b001 =>
      if funct7 = sllFunct7 then
        some (fromImm .sll formalRs1 formalRs2 rd 0)
      else
        none
  | 0b101 =>
      if funct7 = srlFunct7 then
        some (fromImm .srl formalRs1 formalRs2 rd 0)
      else if funct7 = sraFunct7 then
        some (fromImm .sra formalRs1 formalRs2 rd 0)
      else
        none
  | 0b010 => some (fromImm .slt formalRs1 formalRs2 rd 0)
  | 0b011 => some (fromImm .sltu formalRs1 formalRs2 rd 0)
  | 0b100 => some (fromImm .xor formalRs1 formalRs2 rd 0)
  | 0b110 => some (fromImm .or formalRs1 formalRs2 rd 0)
  | 0b111 => some (fromImm .and formalRs1 formalRs2 rd 0)

def decodeLoad (opt : DecodingOptions) (opcode : U32) : Option Instruction :=
  let imm := signExtend (ITypeOpcode.imm opcode) 12
  let formalRs1 := getFormalRs1Bits opcode
  let rd := getRdBits opcode
  let subword := opt.supportSubwordMemAccess
  match funct3Bits opcode with
  | 0 => some (ifSupported subword (fromImm .lb formalRs1 0 rd imm))
  | 1 => some (ifSupported subword (fromImm .lh formalRs1 0 rd imm))
  | 2 => some (fromImm .lw formalRs1 0 rd imm)
  | 4 => some (ifSupported subword (fromImm .lbu formalRs1 0 rd imm))
  | 5 => some (ifSupported subword (fromImm .lhu formalRs1 0 rd imm))
  | _ => none

def decodeStore (opt : DecodingOptions) (opcode : U32) : Option Instruction :=
  let imm := signExtend (STypeOpcode.imm opcode) 12
  let formalRs1 := getFormalRs1Bits opcode
  let formalRs2 := getFormalRs2Bits opcode
  let subword := opt.supportSubwordMemAccess
  match funct3Bits opcode with
  | 0 => some (ifSupported subword (fromImm .sb formalRs1 formalRs2 0 imm))
  | 1 => some (ifSupported subword (fromImm .sh formalRs1 formalRs2 0 imm))
  | 2 => some (fromImm .sw formalRs1 formalRs2 0 imm)
  | _ => none

def decodeMop (opt : DecodingOptions) (opcode : U32) : Option Instruction :=
  let formalRs1 := getFormalRs1Bits opcode
  let formalRs2 := getFormalRs2Bits opcode
  let rd := getRdBits opcode
  let funct7 := funct7Bits opcode
  if funct7 &&& 0b1000001 = 0b1000001 then
    let mopNumber := ((funct7 &&& 0b110) >>> 1) ||| ((funct7 &&& 0b100000) >>> 5)
    match mopNumber with
    | 0 => some (ifSupported opt.supportMop (fromImm .zimopAdd formalRs1 formalRs2 rd 0))
    | 1 => some (ifSupported opt.supportMop (fromImm .zimopSub formalRs1 formalRs2 rd 0))
    | 2 => some (ifSupported opt.supportMop (fromImm .zimopMul formalRs1 formalRs2 rd 0))
    | _ => none
  else
    none

/-- CSR instructions.  A batched delegation leaves the match before the check
that the instruction is `csrrw`. -/
def decodeZicsr (opcode : U32) : Option DecodedWord :=
  let formalRs1 := getFormalRs1Bits opcode
  let rd := getRdBits opcode
  let csrNumber := ITypeOpcode.imm opcode
  let csrrw (instruction : Instruction) : Option DecodedWord :=
    if funct3Bits opcode = 0b001 then some (.single instruction) else none
  if csrNumber = nonDeterminismCsr then
    if formalRs1 = 0 then
      csrrw (fromImm .zicsrNonDeterminismRead 0 0 rd 0)
    else if rd = 0 then
      csrrw (fromImm .zicsrNonDeterminismWrite formalRs1 0 0 0)
    else
      none
  else if csrNumber = blake2sDelegationCsrRegister then
    if formalRs1 = 0 ∧ rd = 0 then some .blakeRun else none
  else if csrNumber = bigintOpsWithControlCsrRegister then
    if formalRs1 = 0 ∧ rd = 0 then
      csrrw (fromImm .zicsrDelegation 0 0 0 DelegationType.bigInt.code)
    else
      none
  else if csrNumber = keccakSpecial5CsrRegister then
    if formalRs1 = 0 ∧ rd = 0 then some .keccakRun else none
  else if csrNumber = cycleCsrIndex then
    -- the canonical encoding of `unimp`
    csrrw illegalInstr
  else
    none

def decodeSystem (opt : DecodingOptions) (opcode : U32) : Option DecodedWord :=
  if funct3Bits opcode = 0b100 then
    (decodeMop opt opcode).map .single
  else if funct3Bits opcode &&& 0x3 ≠ 0 then
    decodeZicsr opcode
  else
    none

/-- The instruction of one word, `none` where the decoder panics. -/
def decodeWord (opt : DecodingOptions) (opcode : U32) : Option DecodedWord :=
  let op := getOpcodeBits opcode
  if op = opcodeLui then
    some (.single (fromImm .lui 0 0 (getRdBits opcode) (UTypeOpcode.imm opcode)))
  else if op = opcodeAuipc then
    some (.single (fromImm .auipc 0 0 (getRdBits opcode) (UTypeOpcode.imm opcode)))
  else if op = opcodeJal then
    some (.single (fromImm .jal 0 0 (getRdBits opcode)
      (signExtend (JTypeOpcode.imm opcode) 21)))
  else if op = opcodeJalr then
    some (.single (fromImm .jalr (getFormalRs1Bits opcode) 0 (getRdBits opcode)
      (signExtend (ITypeOpcode.imm opcode) 12)))
  else if op = opcodeBranch then
    (decodeBranch opcode).map .single
  else if op = opImmSubmask then
    (decodeOpImm opcode).map .single
  else if op = opSubmask then
    if funct7Bits opcode = mExtFunct7 then
      some (.single (decodeMulDiv opt opcode))
    else
      (decodeBasicOp opcode).map .single
  else if op = opcodeLoad then
    (decodeLoad opt opcode).map .single
  else if op = opcodeStore then
    (decodeStore opt opcode).map .single
  else if op = opcodeSystem then
    decodeSystem opt opcode
  else
    some (.single illegalInstr)

/-! ## The loop over the image -/

/-- The first distance `j` at which the word differs from `opcode`, zero if all
`remaining` words agree with it, and `none` past the end of the image. -/
def countCallsFrom (bytecode : List U32) (opcode : U32) (i : Nat) :
    Nat → Nat → Option Nat
  | _, 0 => some 0
  | j, remaining + 1 =>
      match bytecode[i + j]? with
      | none => none
      | some word =>
          if word = opcode then
            countCallsFrom bytecode opcode i (j + 1) remaining
          else
            some j

/-- The instruction emitted at position `i` and the number of words it covers. -/
def preprocessAt (opt : DecodingOptions) (bytecode : List U32) (i : Nat) :
    Option (Instruction × Nat) := do
  let opcode ← bytecode[i]?
  match ← decodeWord opt opcode with
  | .single instruction => some (instruction, 1)
  | .blakeRun =>
      let numCalls ← countCallsFrom bytecode opcode i 1 10
      if numCalls = 7 ∨ numCalls = 10 then
        some (fromImm .zicsrDelegation 0 0 0 DelegationType.blake.code, numCalls)
      else
        none
  | .keccakRun =>
      let numCalls ← countCallsFrom bytecode opcode i 1 numDelegationCallsForKeccakF1600
      if numCalls = numDelegationCallsForKeccakF1600 then
        some (fromImm .zicsrDelegation 0 0 0 DelegationType.keccak.code, numCalls)
      else
        none

/-- The `while` loop.  Every pass moves `i` forward, so the length of the image
bounds the number of passes. -/
def preprocessFrom (opt : DecodingOptions) (bytecode : List U32) :
    Nat → Nat → List Instruction → Option (List Instruction)
  | 0, _, instructions => some instructions
  | fuel + 1, i, instructions =>
      if i < bytecode.length then do
        let (instruction, numWords) ← preprocessAt opt bytecode i
        preprocessFrom opt bytecode fuel (i + numWords) (instructions.set i instruction)
      else
        some instructions

def preprocessBytecode (opt : DecodingOptions) (bytecode : List U32) :
    Option (List Instruction) :=
  preprocessFrom opt bytecode bytecode.length 0
    (List.replicate bytecode.length illegalInstr)

end Airbender.Ir
