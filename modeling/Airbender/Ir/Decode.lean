import Airbender.Ir.Instruction

/-!
# Instruction words

Bit fields of a 32-bit instruction word, the opcode constants and the five
immediate formats, as the preprocessor of the executor reads them.
-/

namespace Airbender.Ir

/-! ## Bit fields -/

def funct3Bits (src : U32) : BitVec 3 :=
  ((src >>> 12) &&& 0b111).setWidth 3

def funct7Bits (src : U32) : BitVec 7 :=
  ((src >>> 25) &&& 0b1111111).setWidth 7

def getOpcodeBits (src : U32) : BitVec 7 :=
  (src &&& 0b01111111).setWidth 7

def getRdBits (src : U32) : RegisterIndex :=
  ((src >>> 7) &&& 0b00011111).setWidth 5

def getFormalRs1Bits (src : U32) : RegisterIndex :=
  ((src >>> 15) &&& 0b00011111).setWidth 5

def getFormalRs2Bits (src : U32) : RegisterIndex :=
  ((src >>> 20) &&& 0b00011111).setWidth 5

/-! ## Bit manipulation -/

/-- The mask of `numBits` ones starting at `fromBit`. -/
def bitsMask (fromBit numBits : Nat) : U32 :=
  (((1 : U32) <<< numBits) - 1) <<< fromBit

def signExtend (value : U32) (totalBits : Nat) : U32 :=
  if value &&& ((1 : U32) <<< (totalBits - 1)) ≠ 0 then
    value ||| ~~~(((1 : U32) <<< totalBits) - 1)
  else
    value

def getBitsAndAlignRight (src : U32) (fromBit numBits : Nat) : U32 :=
  (src &&& bitsMask fromBit numBits) >>> fromBit

def getBitsAndShiftRight (src : U32) (fromBit numBits shift : Nat) : U32 :=
  (src &&& bitsMask fromBit numBits) >>> shift

def getBitsAndShiftLeft (src : U32) (fromBit numBits shift : Nat) : U32 :=
  (src &&& bitsMask fromBit numBits) <<< shift

/-! ## Immediates by format -/

def UTypeOpcode.imm (src : U32) : U32 :=
  getBitsAndShiftRight src 12 20 0

def JTypeOpcode.imm (src : U32) : U32 :=
  getBitsAndShiftRight src 21 10 (21 - 1)
    ||| getBitsAndShiftRight src 20 1 (20 - 11)
    ||| getBitsAndShiftRight src 12 8 0
    ||| getBitsAndShiftRight src 31 1 (31 - 20)

def BTypeOpcode.imm (src : U32) : U32 :=
  getBitsAndShiftRight src 8 4 (8 - 1)
    ||| getBitsAndShiftRight src 25 6 (25 - 5)
    ||| getBitsAndShiftLeft src 7 1 (11 - 7)
    ||| getBitsAndShiftRight src 31 1 (31 - 12)

def ITypeOpcode.imm (src : U32) : U32 :=
  getBitsAndAlignRight src 20 12

def STypeOpcode.imm (src : U32) : U32 :=
  getBitsAndAlignRight src 7 5 ||| getBitsAndShiftRight src 25 7 (25 - 5)

/-! ## Opcodes and groups -/

def opImmSubmask : BitVec 7 := 0b0010011

def opSubmask : BitVec 7 := 0b0110011

def opcodeLui : BitVec 7 := 0b0110111

def opcodeAuipc : BitVec 7 := 0b0010111

def opcodeJal : BitVec 7 := 0b1101111

def opcodeJalr : BitVec 7 := 0b1100111

def opcodeBranch : BitVec 7 := 0b1100011

def opcodeLoad : BitVec 7 := 0b0000011

def opcodeStore : BitVec 7 := 0b0100011

def opcodeSystem : BitVec 7 := 0b1110011

def subFunct7 : BitVec 7 := 0b0100000

def sllFunct7 : BitVec 7 := 0

def srlFunct7 : BitVec 7 := 0

def sraFunct7 : BitVec 7 := 0b0100000

def rotFunct7 : BitVec 7 := 0b0110000

def mExtFunct7 : BitVec 7 := 0b0000001

def cycleCsrIndex : U32 := 3072

end Airbender.Ir
