import Airbender.Circuit.Executor

/-!
# The jump, branch and comparison circuit

Jumps, branches and comparisons share one difference, one lookup that resolves the condition
and one candidate for the next program counter.
-/

namespace Airbender.Circuit

/-! ## Operations -/

/-- The flags of the family. -/
inductive JumpBranchSltFlag where
  | jal
  | jalr
  | slt
  | slti
  | branch
deriving DecidableEq, Repr

namespace JumpBranchSltFlag

/-- The flags in the order of their bits. -/
def all : List JumpBranchSltFlag := [jal, jalr, slt, slti, branch]

def bit : JumpBranchSltFlag → Nat
  | jal => jalBit
  | jalr => jalrBit
  | slt => sltBit
  | slti => sltiBit
  | branch => branchBit

end JumpBranchSltFlag

inductive JumpBranchSltOp where
  | jal
  | jalr
  | slti
  | sltiu
  | slt
  | sltu
  | beq
  | bne
  | blt
  | bge
  | bltu
  | bgeu
deriving DecidableEq, Repr

namespace JumpBranchSltOp

def all : List JumpBranchSltOp :=
  [jal, jalr, slti, sltiu, slt, sltu, beq, bne, blt, bge, bltu, bgeu]

def flag : JumpBranchSltOp → JumpBranchSltFlag
  | jal => .jal
  | jalr => .jalr
  | slti | sltiu => .slti
  | slt | sltu => .slt
  | beq | bne | blt | bge | bltu | bgeu => .branch

open Ir DecoderArm in
/-- The arm of the decoder. -/
def arm (op : JumpBranchSltOp) : DecoderArm :=
  match op with
  | jal => jType opcodeJal (familyBits [op.flag.bit])
  | jalr => iType opcodeJalr 0b000 none (familyBits [op.flag.bit])
  | slti => iType opImmSubmask 0b010 none (familyBits [op.flag.bit])
  | sltiu => iType opImmSubmask 0b011 none (familyBits [op.flag.bit])
  | slt => rType opSubmask 0b010 0 (familyBits [op.flag.bit])
  | sltu => rType opSubmask 0b011 0 (familyBits [op.flag.bit])
  | beq => bType opcodeBranch 0b000 (familyBits [op.flag.bit])
  | bne => bType opcodeBranch 0b001 (familyBits [op.flag.bit])
  | blt => bType opcodeBranch 0b100 (familyBits [op.flag.bit])
  | bge => bType opcodeBranch 0b101 (familyBits [op.flag.bit])
  | bltu => bType opcodeBranch 0b110 (familyBits [op.flag.bit])
  | bgeu => bType opcodeBranch 0b111 (familyBits [op.flag.bit])

/-- The word a comparison or a jump computes for its destination register. -/
def result (op : JumpBranchSltOp) (rs1 rs2 imm pc : U32) : U32 :=
  match op with
  | jal | jalr => pc + 4
  | slti => Vm.sltValue rs1 imm
  | sltiu => Vm.sltuValue rs1 imm
  | slt => Vm.sltValue rs1 rs2
  | sltu => Vm.sltuValue rs1 rs2
  | beq | bne | blt | bge | bltu | bgeu => 0

/-- Whether control goes to the target. -/
def taken (op : JumpBranchSltOp) (rs1 rs2 : U32) : Bool :=
  match op with
  | jal | jalr => true
  | slti | sltiu | slt | sltu => false
  | beq => rs1 == rs2
  | bne => !(rs1 == rs2)
  | blt => rs1.slt rs2
  | bge => !rs1.slt rs2
  | bltu => rs1.ult rs2
  | bgeu => !rs1.ult rs2

def target (op : JumpBranchSltOp) (rs1 imm pc : U32) : U32 :=
  match op with
  | jalr => (rs1 + imm) &&& ~~~1
  | _ => pc + imm

def nextPc (op : JumpBranchSltOp) (rs1 rs2 imm pc : U32) : U32 :=
  if op.taken rs1 rs2 then op.target rs1 imm pc else pc + 4

theorem arms_eq : jumpSltBranchArms true = all.map arm := rfl

theorem arm_bits (op : JumpBranchSltOp) : op.arm.bits.toNat = 2 ^ op.flag.bit := by
  cases op <;> rfl

end JumpBranchSltOp

/-! ## Tables -/

/-- The condition that `create_conditional_jmp_branch_slt_family_resolution_table` resolves. -/
def conditionalFlag (a b : Nat) : Bool :=
  let uf := a.testBit 0
  let outIsZero := a.testBit 1
  let sign1 := a.testBit 2
  let sign2 := a.testBit 3
  let signedLt := if sign1 != sign2 then sign1 else uf
  match b with
  | 0b000 => outIsZero
  | 0b001 => !outIsZero
  | 0b010 => signedLt
  | 0b011 => uf
  | 0b100 => signedLt
  | 0b101 => !signedLt
  | 0b110 => uf
  | _ => !uf

def createConditionalJmpBranchSltFamilyResolutionTable : List (F × F × F) :=
  (List.range (2 ^ 4)).flatMap fun (a : Nat) => (List.range (2 ^ 3)).map fun (b : Nat) =>
    ((a : F), (b : F), fromBoolean (conditionalFlag a b))

/-- `create_jump_cleanup_offset_table`: the bit to check and the limb with two bits cleared. -/
def createJumpCleanupOffsetTable : List (F × F × F) :=
  (List.range (2 ^ 16)).map fun (a : Nat) =>
    ((a : F), ((a / 2 % 2 : Nat) : F), ((a - a % 4 : Nat) : F))

section Tables

theorem mem_conditionalTable {a b : Nat} (aBound : a < 2 ^ 4) (bBound : b < 2 ^ 3) :
    ((a : F), (b : F), fromBoolean (conditionalFlag a b)) ∈
      createConditionalJmpBranchSltFamilyResolutionTable := by
  apply List.mem_flatMap.mpr
  refine ⟨a, List.mem_range.mpr aBound, ?_⟩
  apply List.mem_map.mpr
  exact ⟨b, List.mem_range.mpr bBound, rfl⟩

theorem mem_jumpCleanupTable {a : Nat} (bound : a < 2 ^ 16) :
    ((a : F), ((a / 2 % 2 : Nat) : F), ((a - a % 4 : Nat) : F)) ∈
      createJumpCleanupOffsetTable := by
  apply List.mem_map.mpr
  exact ⟨a, List.mem_range.mpr bound, rfl⟩

end Tables

/-! ## The constraints -/

/-- `get_sign_bit_from_orthogonal_terms`: the borrow of the subtraction of `2^15`. -/
structure SignBitUnderflow (limb underflow out : F) : Prop where
  boolean : IsBoolean underflow
  range : IsU16 out
  difference : limb - 32768 - (out - 65536 * underflow) = 0

theorem exists_signBitUnderflow {limb : Nat} (bound : limb < 2 ^ 16) :
    ∃ out, SignBitUnderflow (limb : F) (fromBoolean (decide (limb < 2 ^ 15))) out := by
  by_cases small : limb < 2 ^ 15
  · refine ⟨((limb + 2 ^ 15 : Nat) : F), isBoolean_fromBoolean _, isU16_natCast (by omega), ?_⟩
    rw [decide_eq_true small, fromBoolean_true]
    push_cast
    ring
  · refine ⟨((limb - 2 ^ 15 : Nat) : F), isBoolean_fromBoolean _, isU16_natCast (by omega), ?_⟩
    rw [decide_eq_false small, fromBoolean_false, Nat.cast_sub (by omega)]
    push_cast
    ring

structure JumpBranchSltRow where
  decoder : DecoderTableEntry
  pcNext : Register
  perform : JumpBranchSltFlag → F
  rs1 : Register
  rs2 : Register
  comparisonOut : Register
  overflow : F
  isZero : F
  isZeroInverse : F
  notSign1 : F
  signOut1 : F
  notSign2 : F
  signOut2 : F
  flag : F
  writeOut : F
  writeFlag : F
  rdWrite : Register
  nextPcForState : Register
  nextPcOverflow : F
  isBranchesSkipped : F
  isBranchesTaken : F
  bit1 : F
  dstLowForJump : F

namespace JumpBranchSltRow

/-- The key of the lookup that resolves the condition. -/
def conditionKey (row : JumpBranchSltRow) : F :=
  row.overflow + 2 * row.isZero + 4 * (1 - row.notSign1) + 8 * (1 - row.notSign2)

/-- The flags whose next program counter is a jump target. -/
def useJumpResult (row : JumpBranchSltRow) : F :=
  row.perform .jal + row.perform .jalr + row.isBranchesTaken

def useDefaultPc (row : JumpBranchSltRow) : F :=
  row.perform .slt + row.perform .slti + row.isBranchesSkipped

/-- The constraints and lookups of `apply_jump_branch_slt`.  The sums and differences are only
collected by the optimization context: `enforce_all` would turn them into constraints, and this
circuit does not call it.  What remains of them are the range checks of both outputs and the
two boolean carries. -/
structure Satisfied (row : JumpBranchSltRow) : Prop where
  mask : SplitIntoBitmask (JumpBranchSltFlag.all.map row.perform)
    row.decoder.circuitFamilyExtraMask
  comparisonRange : row.comparisonOut.RangeChecked
  overflowBoolean : IsBoolean row.overflow
  isZeroInverted : row.isZeroInverse * (row.comparisonOut.low + row.comparisonOut.high) -
    (1 - row.isZero) = 0
  isZeroProduct : (1 - (1 - row.isZero)) * (row.comparisonOut.low + row.comparisonOut.high) = 0
  sign1 : SignBitUnderflow (row.perform .branch * row.rs1.high + row.perform .slt * row.rs1.high +
    row.perform .slti * row.rs1.high + row.perform .jal * row.decoder.pc.high +
    row.perform .jalr * row.decoder.pc.high) row.notSign1 row.signOut1
  sign2 : SignBitUnderflow (row.perform .branch * row.rs2.high + row.perform .slt * row.rs2.high +
    row.perform .slti * row.decoder.imm.high) row.notSign2 row.signOut2
  condition : (row.conditionKey, row.decoder.funct3, row.flag) ∈
    createConditionalJmpBranchSltFamilyResolutionTable
  writeOut : (1 - row.decoder.rdIsZero) * (row.perform .jal + row.perform .jalr) -
    row.writeOut = 0
  writeFlag : (1 - row.decoder.rdIsZero) * (row.perform .slt + row.perform .slti) -
    row.writeFlag = 0
  rdLow : row.writeOut * row.comparisonOut.low + row.writeFlag * row.flag - row.rdWrite.low = 0
  rdHigh : row.writeOut * row.comparisonOut.high - row.rdWrite.high = 0
  nextPcRange : row.nextPcForState.RangeChecked
  nextPcOverflowBoolean : IsBoolean row.nextPcOverflow
  branchesSkipped : row.perform .branch * (1 - row.flag) - row.isBranchesSkipped = 0
  branchesTaken : row.perform .branch * row.flag - row.isBranchesTaken = 0
  cleanup : (row.nextPcForState.low, row.bit1, row.dstLowForJump) ∈ createJumpCleanupOffsetTable
  aligned : row.useJumpResult * row.bit1 = 0
  pcLow : row.useJumpResult * row.dstLowForJump + row.useDefaultPc * row.nextPcForState.low -
    row.pcNext.low = 0
  pcHigh : (row.useJumpResult + row.useDefaultPc) * row.nextPcForState.high - row.pcNext.high = 0

end JumpBranchSltRow

/-! ## Assignments -/

namespace JumpBranchSltFlag

/-- The words whose signs the circuit reads. -/
def operand1 (flag : JumpBranchSltFlag) (rs1 pc : U32) : U32 :=
  match flag with
  | .jal | .jalr => pc
  | .slt | .slti | .branch => rs1

def operand2 (flag : JumpBranchSltFlag) (rs2 imm : U32) : U32 :=
  match flag with
  | .jal | .jalr => 0
  | .slti => imm
  | .slt | .branch => rs2

/-- The key of the lookup for given outputs of the difference. -/
def conditionKey (flag : JumpBranchSltFlag) (rs1 rs2 imm pc comparisonOut : U32)
    (overflow : Bool) : Nat :=
  overflow.toNat + 2 * (decide (comparisonOut = 0)).toNat + 4 * (flag.operand1 rs1 pc).msb.toNat +
    8 * (flag.operand2 rs2 imm).msb.toNat

def isJump : JumpBranchSltFlag → Bool
  | jal | jalr => true
  | slt | slti | branch => false

def isComparison : JumpBranchSltFlag → Bool
  | slt | slti => true
  | jal | jalr | branch => false

def isBranch : JumpBranchSltFlag → Bool
  | branch => true
  | jal | jalr | slt | slti => false

/-- Whether the next program counter is a jump target, for a resolved condition. -/
def jumps (flag : JumpBranchSltFlag) (condition : Bool) : Bool :=
  flag.isJump || (flag.isBranch && condition)

/-- What the destination register receives. -/
def written (flag : JumpBranchSltFlag) (comparisonOut : U32) (condition : Bool) : U32 :=
  match flag with
  | .jal | .jalr => comparisonOut
  | .slt | .slti => if condition then 1 else 0
  | .branch => 0

/-- The assignment for given outputs of the difference and of the next program counter. -/
def assignment (flag : JumpBranchSltFlag) (data : ExecutorFamilyDecoderData) (i : Nat)
    (rs1 rs2 comparisonOut next pcNext : U32) (condition : Bool) (overflow isZeroInverse signOut1
    signOut2 : F) : JumpBranchSltRow where
  decoder := data.entry i
  pcNext := Register.ofU32 pcNext
  perform other := if flag = other then 1 else 0
  rs1 := Register.ofU32 rs1
  rs2 := Register.ofU32 rs2
  comparisonOut := Register.ofU32 comparisonOut
  overflow := overflow
  isZero := fromBoolean (decide (comparisonOut = 0))
  isZeroInverse := isZeroInverse
  notSign1 := fromBoolean (!(flag.operand1 rs1 (BitVec.ofNat 32 (4 * i))).msb)
  signOut1 := signOut1
  notSign2 := fromBoolean (!(flag.operand2 rs2 data.imm).msb)
  signOut2 := signOut2
  flag := fromBoolean condition
  writeOut := fromBoolean (!data.rdIsZero && flag.isJump)
  writeFlag := fromBoolean (!data.rdIsZero && flag.isComparison)
  rdWrite :=
    if data.rdIsZero then Register.ofU32 0 else Register.ofU32 (flag.written comparisonOut condition)
  nextPcForState := Register.ofU32 next
  nextPcOverflow := 0
  isBranchesSkipped := fromBoolean (flag.isBranch && !condition)
  isBranchesTaken := fromBoolean (flag.isBranch && condition)
  bit1 := ((next.toNat / 2 % 2 : Nat) : F)
  dstLowForJump := ((next.toNat % 2 ^ 16 - next.toNat % 4 : Nat) : F)

end JumpBranchSltFlag

section Assignments

variable {flag : JumpBranchSltFlag} {data : ExecutorFamilyDecoderData} {i : Nat}

/-- The sum of the limbs of a word vanishes in the field only for zero. -/
theorem limbs_sum_eq_zero_iff (word : U32) :
    (Register.ofU32 word).low + (Register.ofU32 word).high = 0 ↔ word = 0 := by
  have low := Register.val_low_ofU32 word
  have high := Register.val_high_ofU32 word
  have bound := word.isLt
  constructor
  · intro zero
    have sum : ((Register.ofU32 word).low.val + (Register.ofU32 word).high.val : ℤ) = 0 := by
      apply eq_zero_of_small
      · simpa using zero
      · omega
      · omega
    have zeroNat : (0 : U32).toNat = 0 := rfl
    apply BitVec.eq_of_toNat_eq
    rw [zeroNat]
    omega
  · rintro rfl
    decide

theorem exists_isZeroInverse (word : U32) :
    ∃ inverse : F, inverse * ((Register.ofU32 word).low + (Register.ofU32 word).high) -
        (1 - fromBoolean (decide (word = 0))) = 0 ∧
      (1 - (1 - fromBoolean (decide (word = 0)))) *
        ((Register.ofU32 word).low + (Register.ofU32 word).high) = 0 := by
  have zeroIff := limbs_sum_eq_zero_iff word
  by_cases zero : word = 0
  · rw [zeroIff.mpr zero, decide_eq_true zero, fromBoolean_true]
    exact ⟨0, by ring, by ring⟩
  · rw [decide_eq_false zero, fromBoolean_false]
    have nonzero : (Register.ofU32 word).low + (Register.ofU32 word).high ≠ 0 :=
      fun sum => zero (zeroIff.mp sum)
    refine ⟨((Register.ofU32 word).low + (Register.ofU32 word).high)⁻¹, ?_, by ring⟩
    rw [inv_mul_cancel₀ nonzero]
    ring

/-- The sign of a word is the negated borrow of its high limb. -/
theorem exists_sign (word : U32) :
    ∃ out, SignBitUnderflow (Register.ofU32 word).high (fromBoolean (!word.msb)) out := by
  have bound := word.isLt
  have sign : (!word.msb) = decide (word.toNat / 2 ^ 16 < 2 ^ 15) := by
    rw [BitVec.msb_eq_decide, ← decide_not, decide_eq_decide]
    omega
  rw [sign, Register.high_ofU32]
  exact exists_signBitUnderflow (by omega)

theorem JumpBranchSltFlag.conditionKey_lt (flag : JumpBranchSltFlag) (rs1 rs2 imm pc comparisonOut : U32)
    (overflow : Bool) : flag.conditionKey rs1 rs2 imm pc comparisonOut overflow < 2 ^ 4 := by
  have overflowBound := Bool.toNat_le overflow
  have zeroBound := Bool.toNat_le (decide (comparisonOut = 0))
  have sign1Bound := Bool.toNat_le (flag.operand1 rs1 pc).msb
  have sign2Bound := Bool.toNat_le (flag.operand2 rs2 imm).msb
  rw [JumpBranchSltFlag.conditionKey]
  omega

/-- The outputs of the difference and of the next program counter are free.  Every choice of them
has a satisfying assignment, as long as a jump does not go to an odd half-word. -/
theorem JumpBranchSltFlag.exists_row
    (mask : data.opcodeFamilyBits.toNat = 2 ^ flag.bit) (i : Nat)
    (rs1 rs2 comparisonOut next pcNext : U32) (overflow condition : Bool)
    (resolved : condition = conditionalFlag
      (flag.conditionKey rs1 rs2 data.imm (BitVec.ofNat 32 (4 * i)) comparisonOut overflow)
      data.funct3.toNat)
    (moves : if flag.jumps condition then
        next.toNat / 2 % 2 = 0 ∧ pcNext.toNat = next.toNat - next.toNat % 4
      else pcNext = next) :
    ∃ row : JumpBranchSltRow, row.Satisfied ∧ row.decoder = data.entry i ∧
      row.rs1 = Register.ofU32 rs1 ∧ row.rs2 = Register.ofU32 rs2 ∧
      row.rdWrite = (if data.rdIsZero then Register.ofU32 0
        else Register.ofU32 (flag.written comparisonOut condition)) ∧
      row.pcNext = Register.ofU32 pcNext := by
  rcases exists_isZeroInverse comparisonOut with ⟨isZeroInverse, inverted, product⟩
  rcases exists_sign (flag.operand1 rs1 (BitVec.ofNat 32 (4 * i))) with ⟨signOut1, sign1⟩
  rcases exists_sign (flag.operand2 rs2 data.imm) with ⟨signOut2, sign2⟩
  refine ⟨flag.assignment data i rs1 rs2 comparisonOut next pcNext condition (fromBoolean overflow)
    isZeroInverse signOut1 signOut2, ?_, rfl, rfl, rfl, rfl, rfl⟩
  have split : SplitIntoBitmask (bitmaskFlags (2 ^ flag.bit) 5) ((2 ^ flag.bit : Nat) : F) :=
    splitIntoBitmask_flags (by cases flag <;> decide)
  have flags : (JumpBranchSltFlag.all.map fun other => if flag = other then (1 : F) else 0) =
      bitmaskFlags (2 ^ flag.bit) 5 := by
    cases flag <;> rfl
  have rdIsZero : (data.entry i).rdIsZero = fromBoolean data.rdIsZero := rfl
  have useJumpResult : (flag.assignment data i rs1 rs2 comparisonOut next pcNext condition
      (fromBoolean overflow) isZeroInverse signOut1 signOut2).useJumpResult =
      fromBoolean (flag.jumps condition) := by
    simp only [JumpBranchSltRow.useJumpResult, assignment, jumps]
    cases flag <;> cases condition <;> simp [isBranch, isJump]
  have useDefaultPc : (flag.assignment data i rs1 rs2 comparisonOut next pcNext condition
      (fromBoolean overflow) isZeroInverse signOut1 signOut2).useDefaultPc =
      fromBoolean (!flag.jumps condition) := by
    simp only [JumpBranchSltRow.useDefaultPc, assignment, jumps]
    cases flag <;> cases condition <;> simp [isBranch, isJump]
  have pcRegister := data.entry_pc i
  have immRegister := data.entry_imm i
  constructor
  case mask =>
    rw [← flags, ← mask] at split
    exact split
  case comparisonRange => exact Register.rangeChecked_ofU32 _
  case overflowBoolean => exact isBoolean_fromBoolean overflow
  case isZeroInverted => exact inverted
  case isZeroProduct => exact product
  case sign1 =>
    simp only [assignment, pcRegister]
    cases flag <;> simpa [operand1] using sign1
  case sign2 =>
    simp only [assignment, immRegister]
    have zeroHigh : (Register.ofU32 0#32).high = 0 := rfl
    cases flag <;> simpa [operand2, zeroHigh] using sign2
  case condition =>
    have key : (flag.assignment data i rs1 rs2 comparisonOut next pcNext condition
        (fromBoolean overflow) isZeroInverse signOut1 signOut2).conditionKey =
        ((flag.conditionKey rs1 rs2 data.imm (BitVec.ofNat 32 (4 * i)) comparisonOut
          overflow : Nat) : F) := by
      simp only [JumpBranchSltRow.conditionKey, assignment, conditionKey, fromBoolean_eq]
      push_cast
      cases (flag.operand1 rs1 (BitVec.ofNat 32 (4 * i))).msb <;>
        cases (flag.operand2 rs2 data.imm).msb <;> simp
    rw [key]
    have member := mem_conditionalTable (flag.conditionKey_lt rs1 rs2 data.imm
      (BitVec.ofNat 32 (4 * i)) comparisonOut overflow) data.funct3.isLt
    rw [← resolved] at member
    exact member
  case writeOut =>
    simp only [assignment, rdIsZero]
    cases flag <;> cases data.rdIsZero <;> simp [isJump]
  case writeFlag =>
    simp only [assignment, rdIsZero]
    cases flag <;> cases data.rdIsZero <;> simp [isComparison]
  case rdLow =>
    simp only [assignment]
    cases flag <;> cases data.rdIsZero <;> cases condition <;> simp [written, isJump, isComparison] <;> rfl
  case rdHigh =>
    simp only [assignment]
    cases flag <;> cases data.rdIsZero <;> cases condition <;> simp [written, isJump] <;> rfl
  case nextPcRange => exact Register.rangeChecked_ofU32 _
  case nextPcOverflowBoolean => exact isBoolean_fromBoolean false
  case branchesSkipped =>
    simp only [assignment]
    cases flag <;> cases condition <;> simp [isBranch]
  case branchesTaken =>
    simp only [assignment]
    cases flag <;> cases condition <;> simp [isBranch]
  case cleanup =>
    have member := mem_jumpCleanupTable (Nat.mod_lt next.toNat (Nat.two_pow_pos 16))
    rw [show next.toNat % 2 ^ 16 / 2 % 2 = next.toNat / 2 % 2 by omega,
      show next.toNat % 2 ^ 16 % 4 = next.toNat % 4 by omega, ← Register.low_ofU32] at member
    exact member
  case aligned =>
    rw [useJumpResult]
    cases jumps : flag.jumps condition with
    | false => rw [fromBoolean_false, zero_mul]
    | true =>
        rw [jumps, if_pos rfl] at moves
        simp only [assignment, moves.1, Nat.cast_zero, mul_zero]
  case pcLow =>
    rw [useJumpResult, useDefaultPc]
    cases jumps : flag.jumps condition with
    | false =>
        rw [jumps, if_neg Bool.false_ne_true] at moves
        simp [assignment, moves]
    | true =>
        rw [jumps, if_pos rfl] at moves
        have cleaned : (next.toNat - next.toNat % 4) % 2 ^ 16 =
            next.toNat % 2 ^ 16 - next.toNat % 4 := by omega
        simp only [assignment, Register.low_ofU32, moves.2, cleaned, Bool.not_true, fromBoolean_true,
          fromBoolean_false]
        ring
  case pcHigh =>
    rw [useJumpResult, useDefaultPc]
    cases jumps : flag.jumps condition with
    | false =>
        rw [jumps, if_neg Bool.false_ne_true] at moves
        simp [assignment, moves]
    | true =>
        rw [jumps, if_pos rfl] at moves
        have kept : (next.toNat - next.toNat % 4) / 2 ^ 16 = next.toNat / 2 ^ 16 := by omega
        simp only [assignment, Register.high_ofU32, moves.2, kept, Bool.not_true, fromBoolean_true,
          fromBoolean_false]
        ring

end Assignments

/-! ## The executor -/

section Executor

open Vm

variable {C : Type} {romBits : Nat} {ND : Type} [NonDeterminismCSRSource ND]
  {op : JumpBranchSltOp} {data : ExecutorFamilyDecoderData}

namespace JumpBranchSltOp

/-- The instruction of the executor. -/
def name : JumpBranchSltOp → InstructionName
  | jal => .jal
  | jalr => .jalr
  | slti => .slti
  | sltiu => .sltiu
  | slt => .slt
  | sltu => .sltu
  | beq | bne | blt | bge | bltu | bgeu => .branch

/-- The record the executor would run; a branch keeps its `funct3` in place of the destination. -/
def instruction (op : JumpBranchSltOp) (data : ExecutorFamilyDecoderData) : Instruction :=
  if op.flag.isBranch then
    ⟨op.name, data.rs1Index, data.rs2Index, data.funct3.setWidth 5, data.imm⟩
  else
    data.instruction op.name

/-- The fields of a decoder row that the operation determines. -/
structure Decodes (op : JumpBranchSltOp) (data : ExecutorFamilyDecoderData) : Prop where
  mask : data.opcodeFamilyBits.toNat = 2 ^ op.flag.bit
  rdIsZero : data.rdIsZero = decide (data.rdIndex = 0)
  branchRd : op.flag.isBranch = true → data.rdIndex = 0
  funct3 : ∀ funct3 ∈ op.arm.funct3, data.funct3 = funct3

theorem decodes_of_covers {opcode : U32} (covers : op.arm.Covers opcode) :
    op.Decodes (op.arm.decoded opcode) := by
  refine ⟨op.arm_bits, rfl, ?_, covers.2.1⟩
  intro branch
  cases op <;> first | rfl | cases branch

end JumpBranchSltOp

theorem jumpTo_eq_some {address : U32} {state state' : State C} :
    jumpTo address state = some state' ↔ address &&& 0x3 = 0 ∧ state' = state.setPc address := by
  unfold jumpTo
  by_cases aligned : address &&& 0x3 = 0
  · rw [if_neg (not_not.mpr aligned), Option.some.injEq, eq_comm]
    exact (and_iff_right aligned).symm
  · rw [if_pos aligned]
    exact iff_of_false (by simp) fun jumped => aligned jumped.1

variable [Counters C]

theorem JumpBranchSltOp.branchTaken_eq (decodes : op.Decodes data)
    (branch : op.flag.isBranch = true) (rs1 rs2 : U32) :
    branchTaken (data.funct3.setWidth 5) rs1 rs2 = some (op.taken rs1 rs2) := by
  have funct3 := decodes.funct3
  cases op <;> first
    | exact absurd branch (by decide)
    | rw [funct3 _ rfl]
      rfl

/-- A branch writes nothing and goes to its target if the condition holds. -/
theorem JumpBranchSltOp.branch_eq {machine machine' : Machine C romBits ND}
    {events : List SnapshotEvent} (decodes : op.Decodes data)
    (branch : op.flag.isBranch = true)
    (executed : execute machine (op.instruction data) = some (machine', events)) :
    let rs1 := (machine.state.registers data.rs1Index).value
    let rs2 := (machine.state.registers data.rs2Index).value
    (op.taken rs1 rs2 = true → op.target rs1 data.imm machine.state.pc &&& 0x3 = 0) ∧
      (machine'.state.registers data.rdIndex).value =
        State.maskRd data.rdIndex (op.result rs1 rs2 data.imm machine.state.pc) ∧
      machine'.state.pc = op.nextPc rs1 rs2 data.imm machine.state.pc := by
  intro rs1 rs2
  have isTarget : op.target rs1 data.imm machine.state.pc = machine.state.pc + data.imm := by
    cases op <;> first | rfl | cases branch
  have isBranch : execute machine (op.instruction data) =
      machine.onState (Vm.branch machine.state (op.instruction data)) := by
    rw [instruction, if_pos branch]
    cases op <;> first | rfl | cases branch
  rw [isBranch, Machine.onState, Option.map_eq_some_iff] at executed
  rcases executed with ⟨state, executed, moved⟩
  rcases Prod.mk.inj moved with ⟨rfl, _⟩
  rw [instruction, if_pos branch] at executed
  simp only [Vm.branch, State.readRegister_fst, State.readRegister_value,
    branchTaken_eq decodes branch, Option.bind_eq_bind, Option.bind_some] at executed
  rw [decodes.branchRd branch, nextPc, isTarget]
  by_cases taken : op.taken rs1 rs2 = true
  · rw [if_pos taken, Option.bind_eq_some_iff] at executed
    rcases executed with ⟨jumped, moved, written⟩
    rcases jumpTo_eq_some.mp moved with ⟨aligned, rfl⟩
    rcases Option.some.inj written with rfl
    rw [if_pos taken]
    exact ⟨fun _ => aligned, State.writeRegister_value_self _ _ _ _, rfl⟩
  · rw [if_neg taken] at executed
    rcases Option.some.inj executed with rfl
    rw [if_neg taken]
    exact ⟨fun jumps => absurd jumps taken, State.writeRegister_value_self _ _ _ _, rfl⟩

/-- A step of the executor: a jump goes to an aligned target only. -/
theorem JumpBranchSltOp.execute_eq {machine machine' : Machine C romBits ND}
    {events : List SnapshotEvent} (decodes : op.Decodes data)
    (executed : execute machine (op.instruction data) = some (machine', events)) :
    let rs1 := (machine.state.registers data.rs1Index).value
    let rs2 := (machine.state.registers data.rs2Index).value
    (op.taken rs1 rs2 = true → op.target rs1 data.imm machine.state.pc &&& 0x3 = 0) ∧
      (machine'.state.registers data.rdIndex).value =
        State.maskRd data.rdIndex (op.result rs1 rs2 data.imm machine.state.pc) ∧
      machine'.state.pc = op.nextPc rs1 rs2 data.imm machine.state.pc := by
  intro rs1 rs2
  cases op with
  | jal =>
      change machine.onState (Vm.jal machine.state (data.instruction .jal)) = _ at executed
      simp only [Machine.onState, Option.map_eq_some_iff, Vm.jal, Option.bind_eq_bind,
        Option.bind_eq_some_iff, jumpTo_eq_some, Option.some.injEq] at executed
      rcases executed with ⟨state, ⟨_, ⟨aligned, rfl⟩, rfl⟩, moved⟩
      rcases Prod.mk.inj moved with ⟨rfl, _⟩
      exact ⟨fun _ => aligned, State.writeRegister_value_self _ _ _ _, rfl⟩
  | jalr =>
      change machine.onState (Vm.jalr machine.state (data.instruction .jalr)) = _ at executed
      simp only [Machine.onState, Option.map_eq_some_iff, Vm.jalr, Option.bind_eq_bind,
        Option.bind_eq_some_iff, jumpTo_eq_some, Option.some.injEq] at executed
      rcases executed with ⟨state, ⟨_, ⟨aligned, rfl⟩, rfl⟩, moved⟩
      rcases Prod.mk.inj moved with ⟨rfl, _⟩
      exact ⟨fun _ => aligned, State.writeRegister_value_self _ _ _ _, rfl⟩
  | slti =>
      rcases Prod.mk.inj (Option.some.inj executed) with ⟨rfl, _⟩
      exact ⟨Bool.noConfusion, aluOp_rd .jumpBranchSlt sltValue true _ _, rfl⟩
  | sltiu =>
      rcases Prod.mk.inj (Option.some.inj executed) with ⟨rfl, _⟩
      exact ⟨Bool.noConfusion, aluOp_rd .jumpBranchSlt sltuValue true _ _, rfl⟩
  | slt =>
      rcases Prod.mk.inj (Option.some.inj executed) with ⟨rfl, _⟩
      exact ⟨Bool.noConfusion, aluOp_rd .jumpBranchSlt sltValue false _ _, rfl⟩
  | sltu =>
      rcases Prod.mk.inj (Option.some.inj executed) with ⟨rfl, _⟩
      exact ⟨Bool.noConfusion, aluOp_rd .jumpBranchSlt sltuValue false _ _, rfl⟩
  | beq => exact branch_eq decodes rfl executed
  | bne => exact branch_eq decodes rfl executed
  | blt => exact branch_eq decodes rfl executed
  | bge => exact branch_eq decodes rfl executed
  | bltu => exact branch_eq decodes rfl executed
  | bgeu => exact branch_eq decodes rfl executed

end Executor

/-! ## The honest assignment -/

section Honest

/-- The key of the lookup as bits. -/
theorem conditionalFlag_key (uf outIsZero sign1 sign2 : Bool) (b : Nat) :
    conditionalFlag (uf.toNat + 2 * outIsZero.toNat + 4 * sign1.toNat + 8 * sign2.toNat) b =
      let signedLt := if sign1 != sign2 then sign1 else uf
      match b with
      | 0b000 => outIsZero
      | 0b001 => !outIsZero
      | 0b010 => signedLt
      | 0b011 => uf
      | 0b100 => signedLt
      | 0b101 => !signedLt
      | 0b110 => uf
      | _ => !uf := by
  cases uf <;> cases outIsZero <;> cases sign1 <;> cases sign2 <;> rfl

theorem slt_eq_signs (x y : U32) :
    x.slt y = if x.msb != y.msb then x.msb else x.ult y := by
  by_cases signs : x.msb = y.msb
  · rw [BitVec.slt_eq_ult_of_msb_eq signs, signs]
    simp
  · rw [BitVec.slt_eq_not_ult_of_msb_neq (by simpa using signs)]
    rw [if_pos (by simpa using signs), BitVec.ult]
    rw [BitVec.msb_eq_decide, BitVec.msb_eq_decide, decide_eq_decide] at signs
    rw [BitVec.msb_eq_decide, ← decide_not, decide_eq_decide]
    omega

theorem and_not_eq_sub (word mask : U32) : word &&& ~~~mask = word - (word &&& mask) := by
  have disjoint : (word &&& ~~~mask) &&& (word &&& mask) = 0#32 := by
    ext i bound
    simp only [BitVec.getElem_and, BitVec.getElem_not, BitVec.getElem_zero]
    cases word[i] <;> cases mask[i] <;> rfl
  have whole : (word &&& ~~~mask) ||| (word &&& mask) = word := by
    ext i bound
    simp only [BitVec.getElem_or, BitVec.getElem_and, BitVec.getElem_not]
    cases word[i] <;> cases mask[i] <;> rfl
  rw [eq_comm, BitVec.sub_eq_iff_eq_add, BitVec.add_eq_or_of_and_eq_zero _ _ disjoint, whole]

theorem toNat_and_not_one (word : U32) : (word &&& ~~~1).toNat = word.toNat - word.toNat % 2 := by
  have one : word.toNat &&& 1 = word.toNat % 2 := Nat.and_two_pow_sub_one_eq_mod word.toNat 1
  have bound := word.isLt
  have low : (word &&& 1).toNat = word.toNat % 2 := by
    rw [BitVec.toNat_and]
    exact one
  rw [and_not_eq_sub, BitVec.toNat_sub_of_le, low]
  rw [BitVec.le_def, low]
  exact Nat.mod_le _ _

theorem toNat_mod_of_and_three {word : U32} (aligned : word &&& 0x3 = 0) : word.toNat % 4 = 0 := by
  have low := congrArg BitVec.toNat aligned
  rw [BitVec.toNat_and] at low
  exact (Nat.and_two_pow_sub_one_eq_mod word.toNat 2).symm.trans low

variable {op : JumpBranchSltOp} {data : ExecutorFamilyDecoderData}

/-- The condition of a comparison or of a branch. -/
def JumpBranchSltOp.condition (op : JumpBranchSltOp) (rs1 rs2 imm : U32) : Bool :=
  match op with
  | jal | jalr => false
  | slti => rs1.slt imm
  | sltiu => rs1.ult imm
  | slt => rs1.slt rs2
  | sltu => rs1.ult rs2
  | beq | bne | blt | bge | bltu | bgeu => op.taken rs1 rs2

/-- With the difference of the operands the lookup resolves the condition. -/
theorem JumpBranchSltOp.condition_eq (decodes : op.Decodes data) (rs1 rs2 pc : U32)
    (compares : op.flag.isJump = false) :
    op.condition rs1 rs2 data.imm = conditionalFlag
      (op.flag.conditionKey rs1 rs2 data.imm pc (rs1 - op.flag.operand2 rs2 data.imm)
        (rs1.ult (op.flag.operand2 rs2 data.imm))) data.funct3.toNat := by
  have funct3 := decodes.funct3
  rw [JumpBranchSltFlag.conditionKey, conditionalFlag_key]
  cases op <;> first
    | exact absurd compares (by decide)
    | rw [funct3 _ rfl]
      simp [condition, taken, flag, JumpBranchSltFlag.operand1, JumpBranchSltFlag.operand2,
        slt_eq_signs, BitVec.sub_eq_iff_eq_add, beq_eq_decide]

theorem JumpBranchSltOp.exists_jump_row (decodes : op.Decodes data) (i : Nat) (rs1 rs2 : U32)
    (isJump : op.flag.isJump = true)
    (aligned : op.target rs1 data.imm (BitVec.ofNat 32 (4 * i)) &&& 0x3 = 0) :
    ∃ row : JumpBranchSltRow, row.Satisfied ∧ row.decoder = data.entry i ∧
      row.rs1 = Register.ofU32 rs1 ∧ row.rs2 = Register.ofU32 rs2 ∧
      row.rdWrite = (if data.rdIsZero then Register.ofU32 0
        else Register.ofU32 (BitVec.ofNat 32 (4 * i) + 4)) ∧
      row.pcNext = Register.ofU32 (op.target rs1 data.imm (BitVec.ofNat 32 (4 * i))) := by
  generalize pcIs : BitVec.ofNat 32 (4 * i) = pc at aligned ⊢
  have jumps (condition : Bool) : op.flag.jumps condition = true := by
    rw [JumpBranchSltFlag.jumps, isJump, Bool.true_or]
  have targetAligned := toNat_mod_of_and_three aligned
  -- the sum before bit zero is cleared
  have sum : ∃ next : U32, next.toNat / 2 % 2 = 0 ∧
      (op.target rs1 data.imm pc).toNat = next.toNat - next.toNat % 4 := by
    cases op with
    | jal =>
        have isTarget : jal.target rs1 data.imm pc = pc + data.imm := rfl
        rw [isTarget] at targetAligned ⊢
        exact ⟨pc + data.imm, by omega, by omega⟩
    | jalr =>
        have cleared := toNat_and_not_one (rs1 + data.imm)
        rw [target, cleared] at targetAligned
        refine ⟨rs1 + data.imm, by omega, ?_⟩
        rw [target, cleared]
        omega
    | _ => cases isJump
  rcases sum with ⟨next, bit, cleaned⟩
  rcases JumpBranchSltFlag.exists_row decodes.mask i rs1 rs2 (pc + 4) next
    (op.target rs1 data.imm pc) false _ rfl (by rw [if_pos (jumps _)]; exact ⟨bit, cleaned⟩) with
    ⟨row, satisfied, decoder, rs1Is, rs2Is, rdWrite, pcNext⟩
  refine ⟨row, satisfied, decoder, rs1Is, rs2Is, ?_, pcNext⟩
  rw [rdWrite]
  cases op <;> first | rfl | cases isJump

theorem JumpBranchSltOp.exists_compare_row (decodes : op.Decodes data) (i : Nat) (rs1 rs2 : U32)
    (compares : op.flag.isJump = false)
    (aligned : op.taken rs1 rs2 = true →
      op.target rs1 data.imm (BitVec.ofNat 32 (4 * i)) &&& 0x3 = 0) :
    ∃ row : JumpBranchSltRow, row.Satisfied ∧ row.decoder = data.entry i ∧
      row.rs1 = Register.ofU32 rs1 ∧ row.rs2 = Register.ofU32 rs2 ∧
      row.rdWrite = (if data.rdIsZero then Register.ofU32 0
        else Register.ofU32 (op.result rs1 rs2 data.imm (BitVec.ofNat 32 (4 * i)))) ∧
      row.pcNext = Register.ofU32 (op.nextPc rs1 rs2 data.imm (BitVec.ofNat 32 (4 * i))) := by
  have resolved := op.condition_eq decodes rs1 rs2 (BitVec.ofNat 32 (4 * i)) compares
  have jumps : op.flag.jumps (op.condition rs1 rs2 data.imm) = op.taken rs1 rs2 := by
    cases op <;> rfl
  have moves : if op.flag.jumps (op.condition rs1 rs2 data.imm) then
      (op.nextPc rs1 rs2 data.imm (BitVec.ofNat 32 (4 * i))).toNat / 2 % 2 = 0 ∧
        (op.nextPc rs1 rs2 data.imm (BitVec.ofNat 32 (4 * i))).toNat =
          (op.nextPc rs1 rs2 data.imm (BitVec.ofNat 32 (4 * i))).toNat -
            (op.nextPc rs1 rs2 data.imm (BitVec.ofNat 32 (4 * i))).toNat % 4
      else op.nextPc rs1 rs2 data.imm (BitVec.ofNat 32 (4 * i)) =
        op.nextPc rs1 rs2 data.imm (BitVec.ofNat 32 (4 * i)) := by
    rw [jumps]
    by_cases taken : op.taken rs1 rs2 = true
    · have targetAligned := toNat_mod_of_and_three (aligned taken)
      rw [if_pos taken, nextPc, if_pos taken]
      omega
    · rw [if_neg taken]
  rcases JumpBranchSltFlag.exists_row decodes.mask i rs1 rs2 _ _ _ _ _ resolved moves with
    ⟨row, satisfied, decoder, rs1Is, rs2Is, rdWrite, pcNext⟩
  refine ⟨row, satisfied, decoder, rs1Is, rs2Is, ?_, pcNext⟩
  rw [rdWrite]
  cases op <;> first | rfl | cases compares

/-- Every operand pair whose jump is aligned has a satisfying assignment with the result and the
next program counter of the operation. -/
theorem JumpBranchSltOp.exists_honest_row (decodes : op.Decodes data) (i : Nat) (rs1 rs2 : U32)
    (aligned : op.taken rs1 rs2 = true →
      op.target rs1 data.imm (BitVec.ofNat 32 (4 * i)) &&& 0x3 = 0) :
    ∃ row : JumpBranchSltRow, row.Satisfied ∧ row.decoder = data.entry i ∧
      row.rs1 = Register.ofU32 rs1 ∧ row.rs2 = Register.ofU32 rs2 ∧
      row.rdWrite = Register.ofU32 (State.maskRd data.rdIndex
        (op.result rs1 rs2 data.imm (BitVec.ofNat 32 (4 * i)))) ∧
      row.pcNext = Register.ofU32 (op.nextPc rs1 rs2 data.imm (BitVec.ofNat 32 (4 * i))) := by
  rw [← maskRd_ofU32, ← decodes.rdIsZero]
  cases isJump : op.flag.isJump with
  | true =>
      have taken : op.taken rs1 rs2 = true := by
        cases op <;> first | rfl | cases isJump
      have written : op.result rs1 rs2 data.imm (BitVec.ofNat 32 (4 * i)) =
          BitVec.ofNat 32 (4 * i) + 4 := by
        cases op <;> first | rfl | cases isJump
      rw [written, nextPc, if_pos taken]
      exact op.exists_jump_row decodes i rs1 rs2 isJump (aligned taken)
  | false => exact op.exists_compare_row decodes i rs1 rs2 isJump aligned

end Honest

/-! ## The circuit is complete and not sound -/

section Exact

variable {supportedCsrs : List U16} {i : Nat} {opcode : U32} {entry : DecoderTableEntry}
  {C : Type} [Counters C] {romBits : Nat} {ND : Type} [Vm.NonDeterminismCSRSource ND]

/-- What satisfying assignments at a position should prove for given operands: the result, the
next program counter, and an aligned target if control goes there. -/
def JumpBranchSltOp.Sound (op : JumpBranchSltOp) (data : ExecutorFamilyDecoderData) (i : Nat)
    (rs1 rs2 : U32) : Prop :=
  ∀ row : JumpBranchSltRow, row.Satisfied → row.decoder = data.entry i →
    row.rs1 = Register.ofU32 rs1 → row.rs2 = Register.ofU32 rs2 →
    row.rdWrite.value =
        State.maskRd data.rdIndex (op.result rs1 rs2 data.imm (BitVec.ofNat 32 (4 * i))) ∧
      row.pcNext.value = op.nextPc rs1 rs2 data.imm (BitVec.ofNat 32 (4 * i)) ∧
      (op.taken rs1 rs2 = true → row.pcNext.value.toNat % 4 = 0)

theorem exists_jumpBranchSltOp
    (produced : preprocessOpcode (.jumpSltBranchDecoder true) supportedCsrs i opcode =
      some (some entry)) :
    ∃ op : JumpBranchSltOp, op.arm.Covers opcode ∧
      entry = (op.arm.decoded opcode).entry i := by
  rcases preprocessOpcode_eq_some produced with ⟨arm, member, covers, rfl, _⟩
  rw [OpcodeFamilyDecoder.arms, JumpBranchSltOp.arms_eq] at member
  rcases List.mem_map.mp member with ⟨op, _, rfl⟩
  exact ⟨op, covers, rfl⟩

/-- Every step of the executor has a satisfying assignment that writes what the handler writes. -/
theorem jumpBranchSlt_complete
    (produced : preprocessOpcode (.jumpSltBranchDecoder true) supportedCsrs i opcode =
      some (some entry)) :
    ∃ op : JumpBranchSltOp, op.arm.Covers opcode ∧
      ∀ (machine machine' : Vm.Machine C romBits ND) (events : List SnapshotEvent),
        machine.state.pc = BitVec.ofNat 32 (4 * i) →
        Vm.execute machine (op.instruction (op.arm.decoded opcode)) = some (machine', events) →
        ∃ row : JumpBranchSltRow, row.Satisfied ∧ row.decoder = entry ∧
          row.rs1.value = (machine.state.registers (op.arm.decoded opcode).rs1Index).value ∧
          row.rs2.value = (machine.state.registers (op.arm.decoded opcode).rs2Index).value ∧
          row.rdWrite.value = (machine'.state.registers (op.arm.decoded opcode).rdIndex).value ∧
          row.pcNext.value = machine'.state.pc := by
  rcases exists_jumpBranchSltOp produced with ⟨op, covers, rfl⟩
  have decodes := JumpBranchSltOp.decodes_of_covers covers
  refine ⟨op, covers, ?_⟩
  intro machine machine' events atPc executed
  rcases op.execute_eq decodes executed with ⟨aligned, written, moved⟩
  rw [atPc] at aligned written moved
  rcases op.exists_honest_row decodes i _ _ aligned with
    ⟨row, satisfied, decoder, rs1, rs2, rdWrite, pcNext⟩
  refine ⟨row, satisfied, decoder, ?_, ?_, ?_, ?_⟩
  · rw [rs1, Register.value_ofU32]
  · rw [rs2, Register.value_ofU32]
  · rw [rdWrite, Register.value_ofU32, written]
  · rw [pcNext, Register.value_ofU32, moved]

/-- The circuit is not sound for any row of its decoder and any operands: every aligned address is
accepted as the next program counter. -/
theorem jumpBranchSlt_unsound
    (produced : preprocessOpcode (.jumpSltBranchDecoder true) supportedCsrs i opcode =
      some (some entry)) (rs1 rs2 : U32) :
    ∃ op : JumpBranchSltOp, op.arm.Covers opcode ∧
      entry = (op.arm.decoded opcode).entry i ∧
      (∀ address : U32, address.toNat % 4 = 0 → ∃ row : JumpBranchSltRow, row.Satisfied ∧
        row.decoder = entry ∧ row.rs1 = Register.ofU32 rs1 ∧ row.rs2 = Register.ofU32 rs2 ∧
        row.pcNext.value = address) ∧
      ¬ op.Sound (op.arm.decoded opcode) i rs1 rs2 := by
  rcases exists_jumpBranchSltOp produced with ⟨op, covers, rfl⟩
  have decodes := JumpBranchSltOp.decodes_of_covers covers
  have anywhere (address : U32) (aligned : address.toNat % 4 = 0) : ∃ row : JumpBranchSltRow,
      row.Satisfied ∧ row.decoder = (op.arm.decoded opcode).entry i ∧
      row.rs1 = Register.ofU32 rs1 ∧ row.rs2 = Register.ofU32 rs2 ∧
      row.pcNext.value = address := by
    have moves (condition : Bool) : if op.flag.jumps condition then
        address.toNat / 2 % 2 = 0 ∧ address.toNat = address.toNat - address.toNat % 4
        else address = address := by
      cases op.flag.jumps condition with
      | false => rfl
      | true =>
          rw [if_pos rfl]
          omega
    rcases JumpBranchSltFlag.exists_row decodes.mask i rs1 rs2 0 address address false _ rfl
      (moves _) with ⟨row, satisfied, decoder, rs1Is, rs2Is, _, pcNext⟩
    refine ⟨row, satisfied, decoder, rs1Is, rs2Is, ?_⟩
    rw [pcNext, Register.value_ofU32]
  refine ⟨op, covers, rfl, anywhere, ?_⟩
  intro sound
  -- one of two addresses is wrong
  rcases anywhere 0 rfl with ⟨first, firstSatisfied, firstDecoder, firstRs1, firstRs2, firstPc⟩
  rcases anywhere 4 rfl with
    ⟨second, secondSatisfied, secondDecoder, secondRs1, secondRs2, secondPc⟩
  have firstNext := (sound first firstSatisfied firstDecoder firstRs1 firstRs2).2.1
  have secondNext := (sound second secondSatisfied secondDecoder secondRs1 secondRs2).2.1
  rw [← firstNext, firstPc, secondPc] at secondNext
  exact absurd secondNext (by decide)

/-- A row of `jal x1, 8` at address zero that writes zero and goes to `0x1000`. -/
def jalAnywhere : JumpBranchSltRow where
  decoder := (JumpBranchSltOp.jal.arm.decoded 0x008000ef).entry 0
  pcNext := ⟨0x1000, 0⟩
  perform flag := if flag = .jal then 1 else 0
  rs1 := ⟨0, 0⟩
  rs2 := ⟨0, 0⟩
  comparisonOut := ⟨0, 0⟩
  overflow := 0
  isZero := 1
  isZeroInverse := 0
  notSign1 := 1
  signOut1 := 0x8000
  notSign2 := 1
  signOut2 := 0x8000
  flag := 1
  writeOut := 1
  writeFlag := 0
  rdWrite := ⟨0, 0⟩
  nextPcForState := ⟨0x1000, 0⟩
  nextPcOverflow := 0
  isBranchesSkipped := 0
  isBranchesTaken := 0
  bit1 := 0
  dstLowForJump := 0x1000

theorem jalAnywhere_satisfied : jalAnywhere.Satisfied := by
  constructor
  case mask => exact @splitIntoBitmask_flags 1 5 (by decide)
  case sign1 => exact ⟨by decide, isU16_natCast (n := 0x8000) (by decide), by decide⟩
  case sign2 => exact ⟨by decide, isU16_natCast (n := 0x8000) (by decide), by decide⟩
  case condition => exact mem_conditionalTable (a := 2) (b := 0) (by decide) (by decide)
  case cleanup =>
    have member := mem_jumpCleanupTable (a := 0x1000) (by decide)
    exact member
  all_goals decide

/-- The jump of eight bytes is proved as a jump to `0x1000` that links to zero. -/
theorem jumpBranchSlt_unsound_jal :
    preprocessOpcode (.jumpSltBranchDecoder true) [] 0 0x008000ef =
        some (some jalAnywhere.decoder) ∧
      jalAnywhere.Satisfied ∧ jalAnywhere.rdWrite.value = 0 ∧
      jalAnywhere.pcNext.value = 0x1000 ∧
      ¬ JumpBranchSltOp.jal.Sound (JumpBranchSltOp.jal.arm.decoded 0x008000ef) 0 0 0 := by
  refine ⟨by decide, jalAnywhere_satisfied, by decide, by decide, ?_⟩
  intro sound
  have next := (sound jalAnywhere jalAnywhere_satisfied rfl rfl rfl).2.1
  exact absurd next (by decide)

theorem jumpBranchSlt_unsound_beq :
    ∃ op : JumpBranchSltOp, op.arm.Covers 0x00208463 ∧
      ¬ op.Sound (op.arm.decoded 0x00208463) 0 1 2 := by
  have produced : preprocessOpcode (.jumpSltBranchDecoder true) [] 0 0x00208463 =
      some (some ((JumpBranchSltOp.beq.arm.decoded 0x00208463).entry 0)) := by decide
  rcases jumpBranchSlt_unsound produced 1 2 with ⟨op, covers, _, _, unsound⟩
  exact ⟨op, covers, unsound⟩

end Exact

end Airbender.Circuit
