import Airbender.Ir.Decode
import Airbender.Riscv.Encoding
import Mathlib.Tactic.IntervalCases

/-!
# The decoder reads the fields of the RISC-V formats

The masks and shifts of the decoder against the slices of a word.
-/

namespace Airbender.Ir

section Fields

variable (word : U32)

theorem getOpcodeBits_eq : getOpcodeBits word = Riscv.opcode word := by
  apply BitVec.eq_of_getLsbD_eq
  intro i bound
  simp only [getOpcodeBits, Riscv.opcode, BitVec.getLsbD_setWidth, BitVec.getLsbD_and,
    BitVec.getLsbD_extractLsb']
  interval_cases i <;> simp

theorem funct3Bits_eq : funct3Bits word = Riscv.funct3 word := by
  apply BitVec.eq_of_getLsbD_eq
  intro i bound
  simp only [funct3Bits, Riscv.funct3, BitVec.getLsbD_setWidth, BitVec.getLsbD_and,
    BitVec.getLsbD_ushiftRight, BitVec.getLsbD_extractLsb']
  interval_cases i <;> simp

theorem funct7Bits_eq : funct7Bits word = Riscv.funct7 word := by
  apply BitVec.eq_of_getLsbD_eq
  intro i bound
  simp only [funct7Bits, Riscv.funct7, BitVec.getLsbD_setWidth, BitVec.getLsbD_and,
    BitVec.getLsbD_ushiftRight, BitVec.getLsbD_extractLsb']
  interval_cases i <;> simp

theorem getRdBits_eq : getRdBits word = Riscv.rd word := by
  apply BitVec.eq_of_getLsbD_eq
  intro i bound
  simp only [getRdBits, Riscv.rd, BitVec.getLsbD_setWidth, BitVec.getLsbD_and,
    BitVec.getLsbD_ushiftRight, BitVec.getLsbD_extractLsb']
  interval_cases i <;> simp

theorem getFormalRs1Bits_eq : getFormalRs1Bits word = Riscv.rs1 word := by
  apply BitVec.eq_of_getLsbD_eq
  intro i bound
  simp only [getFormalRs1Bits, Riscv.rs1, BitVec.getLsbD_setWidth, BitVec.getLsbD_and,
    BitVec.getLsbD_ushiftRight, BitVec.getLsbD_extractLsb']
  interval_cases i <;> simp

theorem getFormalRs2Bits_eq : getFormalRs2Bits word = Riscv.rs2 word := by
  apply BitVec.eq_of_getLsbD_eq
  intro i bound
  simp only [getFormalRs2Bits, Riscv.rs2, BitVec.getLsbD_setWidth, BitVec.getLsbD_and,
    BitVec.getLsbD_ushiftRight, BitVec.getLsbD_extractLsb']
  interval_cases i <;> simp

end Fields

/-! ## Sign extension -/

theorem getLsbD_lowMask {n : Nat} (small : n < 32) (i : Nat) :
    (((1 : U32) <<< n) - 1).getLsbD i = decide (i < n) := by
  have power : 2 ^ n < 2 ^ 32 := Nat.pow_lt_pow_right (by decide) small
  have positive : 0 < 2 ^ n := Nat.two_pow_pos n
  have shifted : ((1 : U32) <<< n).toNat = 2 ^ n := by
    rw [BitVec.toNat_shiftLeft, Nat.shiftLeft_eq]
    change 1 * 2 ^ n % 2 ^ 32 = _
    rw [Nat.one_mul, Nat.mod_eq_of_lt power]
  have value : (((1 : U32) <<< n) - 1).toNat = 2 ^ n - 1 := by
    rw [BitVec.toNat_sub, shifted]
    change (2 ^ 32 - 1 + 2 ^ n) % 2 ^ 32 = _
    omega
  rw [BitVec.getLsbD, value, Nat.testBit_two_pow_sub_one]

/-- The sign extension of the decoder is the one of bit vectors. -/
theorem signExtend_setWidth {n : Nat} (narrow : BitVec (n + 1)) (small : n + 1 < 32) :
    signExtend (narrow.setWidth 32) (n + 1) = narrow.signExtend 32 := by
  have bitMask : (1 : U32) <<< n = BitVec.twoPow 32 n := rfl
  have signBit : (narrow.setWidth 32).getLsbD n = narrow.msb := by
    rw [BitVec.getLsbD_setWidth, BitVec.msb_eq_getLsbD_last]
    simp only [Nat.add_sub_cancel, decide_eq_true (show n < 32 by omega), Bool.true_and]
  have nonzero : BitVec.twoPow 32 n ≠ 0 := by
    intro zero
    have bit := congrArg (fun word => BitVec.getLsbD word n) zero
    simp only [BitVec.getLsbD_twoPow] at bit
    simp at bit
    omega
  apply BitVec.eq_of_getLsbD_eq
  intro i bound
  rw [signExtend, Nat.add_sub_cancel, bitMask, BitVec.and_twoPow, signBit,
    BitVec.getLsbD_signExtend]
  cases sign : narrow.msb with
  | false =>
      rw [if_neg Bool.false_ne_true, if_neg (by simp), BitVec.getLsbD_setWidth]
      by_cases inside : i < n + 1
      · simp [inside]
      · simp [inside, BitVec.getLsbD_of_ge narrow i (by omega)]
  | true =>
      rw [if_pos rfl, if_pos nonzero, BitVec.getLsbD_or, BitVec.getLsbD_not,
        getLsbD_lowMask small i, BitVec.getLsbD_setWidth]
      by_cases inside : i < n + 1
      · simp [inside, bound]
      · simp [inside, bound]

/-! ## Immediates -/

section Immediates

variable (word : U32)

theorem ITypeOpcode.imm_eq : ITypeOpcode.imm word = (Riscv.csr word).setWidth 32 := by
  apply BitVec.eq_of_getLsbD_eq
  intro i bound
  simp only [ITypeOpcode.imm, Riscv.csr, getBitsAndAlignRight, BitVec.getLsbD_ushiftRight,
    BitVec.getLsbD_and, BitVec.getLsbD_setWidth, BitVec.getLsbD_extractLsb']
  interval_cases i <;> simp [bitsMask]

theorem ITypeOpcode.imm_extended :
    signExtend (ITypeOpcode.imm word) 12 = Riscv.Format.i.immediate word := by
  rw [ITypeOpcode.imm_eq, Riscv.csr]
  exact signExtend_setWidth _ (by decide)

theorem STypeOpcode.imm_extended :
    signExtend (STypeOpcode.imm word) 12 = Riscv.Format.s.immediate word := by
  have narrow : STypeOpcode.imm word =
      (word.extractLsb' 25 7 ++ word.extractLsb' 7 5).setWidth 32 := by
    apply BitVec.eq_of_getLsbD_eq
    intro i bound
    simp only [STypeOpcode.imm, getBitsAndAlignRight, getBitsAndShiftRight,
      BitVec.getLsbD_ushiftRight, BitVec.getLsbD_and, BitVec.getLsbD_or, BitVec.getLsbD_setWidth,
      BitVec.getLsbD_append, BitVec.getLsbD_extractLsb']
    interval_cases i <;> simp [bitsMask]
  rw [narrow]
  exact signExtend_setWidth _ (by decide)

theorem BTypeOpcode.imm_extended :
    signExtend (BTypeOpcode.imm word) 13 = Riscv.Format.b.immediate word := by
  have narrow : BTypeOpcode.imm word = (word.extractLsb' 31 1 ++ word.extractLsb' 7 1 ++
      word.extractLsb' 25 6 ++ word.extractLsb' 8 4 ++ 0#1).setWidth 32 := by
    apply BitVec.eq_of_getLsbD_eq
    intro i bound
    simp only [BTypeOpcode.imm, getBitsAndShiftLeft, getBitsAndShiftRight,
      BitVec.getLsbD_ushiftRight, BitVec.getLsbD_shiftLeft, BitVec.getLsbD_and, BitVec.getLsbD_or,
      BitVec.getLsbD_setWidth, BitVec.getLsbD_append, BitVec.getLsbD_extractLsb']
    interval_cases i <;> simp [bitsMask]
  rw [narrow]
  exact signExtend_setWidth _ (by decide)

theorem UTypeOpcode.imm_eq : UTypeOpcode.imm word = Riscv.Format.u.immediate word := by
  apply BitVec.eq_of_getLsbD_eq
  intro i bound
  simp only [UTypeOpcode.imm, Riscv.Format.immediate, getBitsAndShiftRight,
    BitVec.getLsbD_ushiftRight, BitVec.getLsbD_and, BitVec.getLsbD_append,
    BitVec.getLsbD_extractLsb']
  interval_cases i <;> simp [bitsMask]

theorem JTypeOpcode.imm_extended :
    signExtend (JTypeOpcode.imm word) 21 = Riscv.Format.j.immediate word := by
  have narrow : JTypeOpcode.imm word = (word.extractLsb' 31 1 ++ word.extractLsb' 12 8 ++
      word.extractLsb' 20 1 ++ word.extractLsb' 21 10 ++ 0#1).setWidth 32 := by
    apply BitVec.eq_of_getLsbD_eq
    intro i bound
    simp only [JTypeOpcode.imm, getBitsAndShiftRight, BitVec.getLsbD_ushiftRight,
      BitVec.getLsbD_and, BitVec.getLsbD_or, BitVec.getLsbD_setWidth, BitVec.getLsbD_append,
      BitVec.getLsbD_extractLsb']
    interval_cases i <;> simp [bitsMask]
  rw [narrow]
  exact signExtend_setWidth _ (by decide)

end Immediates

end Airbender.Ir
