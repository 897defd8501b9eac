import Airbender.Circuit.Executor

/-!
# The addition circuit

One pair of limb relations serves `ADD`, `ADDI`, `SUB`, `LUI` and `AUIPC`, and the canonicity
of the field operations.
-/

namespace Airbender.Circuit

/-! ## Operations -/

inductive AddSubLuiAuipcMopOp where
  | add
  | addi
  | sub
  | lui
  | auipc
  | addmod
  | submod
  | mulmod
deriving DecidableEq, Repr

/-- The representative of an integer below the modulus. -/
def residue (z : ℤ) : U32 := BitVec.ofInt 32 (z % 2147483647)

namespace AddSubLuiAuipcMopOp

/-- The operations in the order of their bits. -/
def all : List AddSubLuiAuipcMopOp := [add, addi, sub, lui, auipc, addmod, submod, mulmod]

def bit : AddSubLuiAuipcMopOp → Nat
  | add => addOpBit
  | addi => addiOpBit
  | sub => subOpBit
  | lui => luiOpBit
  | auipc => auipcOpBit
  | addmod => addmodBit
  | submod => submodBit
  | mulmod => mulmodBit

open Ir DecoderArm in
/-- The arm of the decoder. -/
def arm (op : AddSubLuiAuipcMopOp) : DecoderArm :=
  match op with
  | add => rType opSubmask 0b000 0b0000000 (familyBits [op.bit])
  | addi => iType opImmSubmask 0b000 none (familyBits [op.bit])
  | sub => rType opSubmask 0b000 0b0100000 (familyBits [op.bit])
  | lui => uType opcodeLui (familyBits [op.bit])
  | auipc => uType opcodeAuipc (familyBits [op.bit])
  | addmod => rType opcodeSystem 0b100 0b1000001 (familyBits [op.bit])
  | submod => rType opcodeSystem 0b100 0b1000011 (familyBits [op.bit])
  | mulmod => rType opcodeSystem 0b100 0b1000101 (familyBits [op.bit])

/-- The instruction of the executor. -/
def name : AddSubLuiAuipcMopOp → InstructionName
  | add => .add
  | addi => .addi
  | sub => .sub
  | lui => .lui
  | auipc => .auipc
  | addmod => .zimopAdd
  | submod => .zimopSub
  | mulmod => .zimopMul

/-- The value of the destination register. -/
def result (op : AddSubLuiAuipcMopOp) (rs1 rs2 imm pc : U32) : U32 :=
  match op with
  | add => rs1 + rs2
  | addi => rs1 + imm
  | sub => rs1 - rs2
  | lui => imm
  | auipc => pc + imm
  | addmod => residue (rs1.toNat + rs2.toNat)
  | submod => residue (rs1.toNat - rs2.toNat)
  | mulmod => residue (rs1.toNat * rs2.toNat)

theorem arms_eq : addSubLuiAuipcMopArms = all.map arm := rfl

theorem arm_bits (op : AddSubLuiAuipcMopOp) : op.arm.bits.toNat = 2 ^ op.bit := by
  cases op <;> rfl

end AddSubLuiAuipcMopOp

/-! ## The constraints -/

structure AddSubLuiAuipcMopRow where
  decoder : DecoderTableEntry
  pcNext : Register
  perform : AddSubLuiAuipcMopOp → F
  rs1 : Register
  rs2 : Register
  out : Register
  intermediateTmp : Register
  carryIntermediate : F
  overflow : F
  mulmodTmp : F
  rdWrite : Register
  bumpPc : BumpPcWitness

/-- The limbs of the modulus. -/
def modulusRegister : Register := ⟨65535, 32767⟩

namespace AddSubLuiAuipcMopRow

/-- The variants of the shared addition.  A subtraction reads its operand as the sum, and the
field operations compare the output with the modulus. -/
def relation (row : AddSubLuiAuipcMopRow) (op : AddSubLuiAuipcMopOp) : AddSubRelation :=
  match op with
  | .add => ⟨row.perform op, row.rs1, row.rs2, row.out⟩
  | .addi => ⟨row.perform op, row.rs1, row.decoder.imm, row.out⟩
  | .sub => ⟨row.perform op, row.out, row.rs2, row.rs1⟩
  | .lui => ⟨row.perform op, ⟨0, 0⟩, row.decoder.imm, row.out⟩
  | .auipc => ⟨row.perform op, row.decoder.pc, row.decoder.imm, row.out⟩
  | .addmod | .submod | .mulmod =>
      ⟨row.perform op, row.intermediateTmp, modulusRegister, row.out⟩

structure Satisfied (row : AddSubLuiAuipcMopRow) : Prop where
  mask : SplitIntoBitmask (AddSubLuiAuipcMopOp.all.map row.perform)
    row.decoder.circuitFamilyExtraMask
  outRange : row.out.RangeChecked
  intermediateRange : row.intermediateTmp.RangeChecked
  addSub : EnforceAddSub (AddSubLuiAuipcMopOp.all.map row.relation) row.carryIntermediate
    row.overflow
  addmod : row.perform .addmod *
    (row.out.toField - (row.rs1.toField + row.rs2.toField)) = 0
  addmodBorrow : row.perform .addmod * (1 - row.overflow) = 0
  submod : row.perform .submod *
    (row.out.toField - (row.rs1.toField - row.rs2.toField)) = 0
  submodBorrow : row.perform .submod * (1 - row.overflow) = 0
  mulmodTmp : row.rs1.toField * row.rs2.toField - row.mulmodTmp = 0
  mulmod : row.perform .mulmod * (row.out.toField - row.mulmodTmp) = 0
  mulmodBorrow : row.perform .mulmod * (1 - row.overflow) = 0
  rdWrite : MaskRd row.out row.decoder.rdIsZero row.rdWrite
  pcStep : BumpPc row.decoder.pc row.pcNext row.bumpPc

end AddSubLuiAuipcMopRow

/-! ## Soundness -/

section Soundness

variable {row : AddSubLuiAuipcMopRow} {op : AddSubLuiAuipcMopOp}

/-- The mask of an operation selects its flag. -/
theorem AddSubLuiAuipcMopRow.Satisfied.perform_eq (satisfied : row.Satisfied)
    (mask : row.decoder.circuitFamilyExtraMask = ((2 ^ op.bit : Nat) : F))
    (other : AddSubLuiAuipcMopOp) : row.perform other = if op = other then 1 else 0 := by
  have split := satisfied.mask
  rw [mask] at split
  have bound : 2 ^ op.bit < 2 ^ 8 := by cases op <;> decide
  have position : (AddSubLuiAuipcMopOp.all.map row.perform)[other.bit]? =
      some (row.perform other) := by
    cases other <;> rfl
  have flag := split.flag_eq bound (Nat.le_of_ble_eq_true rfl) position
  rw [flag, Nat.testBit_two_pow]
  cases op <;> cases other <;> rfl

/-- With one flag set the shared addition is the relation of that operation. -/
theorem enforceAddSub_iff (flags : ∀ other, row.perform other = if op = other then 1 else 0) :
    EnforceAddSub (AddSubLuiAuipcMopOp.all.map row.relation) row.carryIntermediate row.overflow ↔
      IsBoolean row.carryIntermediate ∧ IsBoolean row.overflow ∧
        AddRelation (row.relation op).a (row.relation op).b (row.relation op).c
          row.carryIntermediate row.overflow := by
  have flag (other : AddSubLuiAuipcMopOp) :
      (row.relation other).execFlag = if op = other then 1 else 0 := by
    rw [← flags other]
    cases other <;> rfl
  constructor
  · rintro ⟨intermediate, overflow, low, high⟩
    refine ⟨intermediate, overflow, ?_⟩
    simp only [AddSubLuiAuipcMopOp.all, List.map_cons, List.map_nil, List.sum_cons,
      List.sum_nil, flag] at low high
    cases op <;> simp at low high <;> exact ⟨low, high⟩
  · rintro ⟨intermediate, overflow, ⟨low, high⟩⟩
    refine ⟨intermediate, overflow, ?_, ?_⟩ <;>
      simp only [AddSubLuiAuipcMopOp.all, List.map_cons, List.map_nil, List.sum_cons,
        List.sum_nil, flag] <;>
      cases op <;> simp [low, high]

theorem AddSubLuiAuipcMopRow.Satisfied.addRelation (satisfied : row.Satisfied)
    (mask : row.decoder.circuitFamilyExtraMask = ((2 ^ op.bit : Nat) : F)) :
    AddRelation (row.relation op).a (row.relation op).b (row.relation op).c
      row.carryIntermediate row.overflow :=
  ((enforceAddSub_iff (satisfied.perform_eq mask)).mp satisfied.addSub).2.2

/-- A word below the modulus is the representative of its residue class. -/
theorem eq_residue {word : U32} {z : ℤ} (bound : word.toNat < 2147483647)
    (cast : (word.toNat : F) = (z : F)) : word = residue z := by
  have reduced : (word.toNat : ℤ) = z % 2147483647 := by
    have value := ZMod.val_intCast (n := 2147483647) z
    rw [← cast, val_natCast_of_lt bound] at value
    exact value
  apply BitVec.eq_of_toNat_eq
  rw [residue, ← reduced, BitVec.ofInt_natCast, BitVec.toNat_ofNat]
  exact (Nat.mod_eq_of_lt word.isLt).symm

/-- With the borrow set, the comparison with the modulus makes the output canonical. -/
theorem canonical_of_borrow {tmp out : Register} {carryIntermediate overflow : F}
    (relation : AddRelation tmp modulusRegister out carryIntermediate overflow)
    (tmpRange : tmp.RangeChecked) (outRange : out.RangeChecked)
    (intermediate : IsBoolean carryIntermediate) (borrow : 1 - overflow = 0) :
    out.value.toNat < 2147483647 := by
  have modulusRange : modulusRegister.RangeChecked := by decide
  have modulusValue : modulusRegister.value.toNat = 2147483647 := by decide
  have overflowEq : overflow = 1 := (sub_eq_zero.mp borrow).symm
  have sum := relation.toNat_eq tmpRange modulusRange outRange intermediate
    (isBoolean_iff.mpr (Or.inr overflowEq))
  have tmpBound := tmp.value.isLt
  rw [overflowEq, ZMod.val_one, modulusValue] at sum
  omega

/-- The output of a satisfied row is the result of its operation. -/
theorem AddSubLuiAuipcMopRow.Satisfied.out_value {imm pc : U32} (satisfied : row.Satisfied)
    (mask : row.decoder.circuitFamilyExtraMask = ((2 ^ op.bit : Nat) : F))
    (rs1Range : row.rs1.RangeChecked) (rs2Range : row.rs2.RangeChecked)
    (immLimbs : row.decoder.imm = Register.ofU32 imm)
    (pcLimbs : row.decoder.pc = Register.ofU32 pc) :
    row.out.value = op.result row.rs1.value row.rs2.value imm pc := by
  have relation := satisfied.addRelation mask
  have flag := satisfied.perform_eq mask op
  have intermediate := satisfied.addSub.intermediateBoolean
  have overflow := satisfied.addSub.outBoolean
  have immRange := Register.rangeChecked_ofU32 imm
  have pcRange := Register.rangeChecked_ofU32 pc
  rw [if_pos rfl] at flag
  cases op with
  | add => exact relation.value_eq rs1Range rs2Range satisfied.outRange intermediate overflow
  | addi =>
      simp only [AddSubLuiAuipcMopRow.relation, immLimbs] at relation
      have sum := relation.value_eq rs1Range immRange satisfied.outRange intermediate overflow
      rw [sum, Register.value_ofU32]
      rfl
  | sub =>
      have sum : row.rs1.value = row.out.value + row.rs2.value :=
        relation.value_eq satisfied.outRange rs2Range rs1Range intermediate overflow
      rw [AddSubLuiAuipcMopOp.result, sum]
      exact (BitVec.add_sub_cancel _ _).symm
  | lui =>
      simp only [AddSubLuiAuipcMopRow.relation, immLimbs] at relation
      have zeroRange : Register.RangeChecked ⟨0, 0⟩ := by decide
      have sum := relation.value_eq zeroRange immRange satisfied.outRange intermediate overflow
      have zero : Register.value ⟨0, 0⟩ = 0 := by decide
      rw [sum, zero, Register.value_ofU32, AddSubLuiAuipcMopOp.result]
      exact BitVec.zero_add imm
  | auipc =>
      simp only [AddSubLuiAuipcMopRow.relation, immLimbs, pcLimbs] at relation
      have sum := relation.value_eq pcRange immRange satisfied.outRange intermediate overflow
      rw [sum, Register.value_ofU32, Register.value_ofU32]
      rfl
  | addmod =>
      have borrow := satisfied.addmodBorrow
      have equation := satisfied.addmod
      rw [flag, one_mul] at borrow equation
      apply eq_residue
      · exact canonical_of_borrow relation satisfied.intermediateRange satisfied.outRange
          intermediate borrow
      · rw [← satisfied.outRange.toField_eq, sub_eq_zero.mp equation, rs1Range.toField_eq,
          rs2Range.toField_eq]
        push_cast
        rfl
  | submod =>
      have borrow := satisfied.submodBorrow
      have equation := satisfied.submod
      rw [flag, one_mul] at borrow equation
      apply eq_residue
      · exact canonical_of_borrow relation satisfied.intermediateRange satisfied.outRange
          intermediate borrow
      · rw [← satisfied.outRange.toField_eq, sub_eq_zero.mp equation, rs1Range.toField_eq,
          rs2Range.toField_eq]
        push_cast
        rfl
  | mulmod =>
      have borrow := satisfied.mulmodBorrow
      have equation := satisfied.mulmod
      rw [flag, one_mul] at borrow equation
      apply eq_residue
      · exact canonical_of_borrow relation satisfied.intermediateRange satisfied.outRange
          intermediate borrow
      · rw [← satisfied.outRange.toField_eq, sub_eq_zero.mp equation,
          ← sub_eq_zero.mp satisfied.mulmodTmp, rs1Range.toField_eq, rs2Range.toField_eq]
        push_cast
        rfl

end Soundness

/-! ## The executor -/

section Executor

open Vm

/-- The field operations of the executor reduce operands at or above the modulus. -/
theorem mopValue_eq_residue {op : U32 → U32 → U32} {rs1 rs2 : U32} {z : ℤ}
    (bound : (op (Mersenne31.fromNonreducedU32 rs1) (Mersenne31.fromNonreducedU32 rs2)).toNat <
      2 ^ 31)
    (congruent : ((op (Mersenne31.fromNonreducedU32 rs1)
      (Mersenne31.fromNonreducedU32 rs2)).toNat : F) = (z : F)) :
    mopValue op rs1 rs2 = residue z := by
  have reduced := Mersenne31.toNat_toReducedU32 bound
  apply eq_residue
  · rw [mopValue, reduced]
    exact Nat.mod_lt _ (by decide)
  · rw [mopValue, reduced, ZMod.natCast_mod]
    exact congruent

theorem natCast_fromNonreducedU32 (value : U32) :
    ((Mersenne31.fromNonreducedU32 value).toNat : F) = (value.toNat : F) := by
  rw [Mersenne31.toNat_fromNonreducedU32, ZMod.natCast_mod]

theorem fromNonreducedU32_lt (value : U32) :
    (Mersenne31.fromNonreducedU32 value).toNat < 2 ^ 31 - 1 := by
  rw [Mersenne31.toNat_fromNonreducedU32]
  exact Nat.mod_lt _ (by decide)

theorem mopValue_addMod (rs1 rs2 : U32) :
    mopValue Mersenne31.addMod rs1 rs2 = residue (rs1.toNat + rs2.toNat) := by
  have rs1Bound := fromNonreducedU32_lt rs1
  have rs2Bound := fromNonreducedU32_lt rs2
  have spec := @Mersenne31.addMod_spec (Mersenne31.fromNonreducedU32 rs1)
    (Mersenne31.fromNonreducedU32 rs2) (by omega) (by omega)
  apply mopValue_eq_residue spec.1
  have cast := congrArg (Nat.cast : Nat → F) spec.2
  rw [ZMod.natCast_mod, ZMod.natCast_mod] at cast
  rw [cast, Nat.cast_add, natCast_fromNonreducedU32, natCast_fromNonreducedU32]
  push_cast
  rfl

theorem mopValue_subMod (rs1 rs2 : U32) :
    mopValue Mersenne31.subMod rs1 rs2 = residue (rs1.toNat - rs2.toNat) := by
  have rs1Bound := fromNonreducedU32_lt rs1
  have rs2Bound := fromNonreducedU32_lt rs2
  have spec := Mersenne31.subMod_spec rs1Bound rs2Bound
  apply mopValue_eq_residue spec.1
  have cast := congrArg (Nat.cast : Nat → F) spec.2
  have modulusCast : ((2 ^ 31 - 1 : Nat) : F) = 0 := by decide
  rw [ZMod.natCast_mod, ZMod.natCast_mod, Nat.cast_sub (by omega), Nat.cast_add, modulusCast,
    add_zero, natCast_fromNonreducedU32, natCast_fromNonreducedU32] at cast
  rw [cast]
  push_cast
  rfl

theorem mopValue_mulMod (rs1 rs2 : U32) :
    mopValue Mersenne31.mulMod rs1 rs2 = residue (rs1.toNat * rs2.toNat) := by
  have spec := Mersenne31.mulMod_spec (fromNonreducedU32_lt rs1) (fromNonreducedU32_lt rs2)
  apply mopValue_eq_residue spec.1
  have cast := congrArg (Nat.cast : Nat → F) spec.2
  rw [ZMod.natCast_mod, ZMod.natCast_mod, Nat.cast_mul, natCast_fromNonreducedU32,
    natCast_fromNonreducedU32] at cast
  rw [cast]
  push_cast
  rfl

variable {C : Type} [Counters C] {romBits : Nat} {ND : Type} [NonDeterminismCSRSource ND]

/-- The executor writes the result of the operation and moves to the next word. -/
theorem AddSubLuiAuipcMopOp.execute_eq (op : AddSubLuiAuipcMopOp)
    (machine : Machine C romBits ND) (data : ExecutorFamilyDecoderData) :
    ∃ machine', execute machine (data.instruction op.name) = some (machine', []) ∧
      (machine'.state.registers data.rdIndex).value =
        State.maskRd data.rdIndex (op.result (machine.state.registers data.rs1Index).value
          (machine.state.registers data.rs2Index).value data.imm machine.state.pc) ∧
      machine'.state.pc = machine.state.pc + 4 := by
  cases op with
  | add => exact ⟨_, rfl, aluOp_rd .addSubLuiAuipcMop (· + ·) false _ _, rfl⟩
  | addi => exact ⟨_, rfl, aluOp_rd .addSubLuiAuipcMop (· + ·) true _ _, rfl⟩
  | sub => exact ⟨_, rfl, aluOp_rd .addSubLuiAuipcMop (· - ·) false _ _, rfl⟩
  | lui => exact ⟨_, rfl, State.writeRegister_value_self _ _ _ _, rfl⟩
  | auipc => exact ⟨_, rfl, State.writeRegister_value_self _ _ _ _, rfl⟩
  | addmod =>
      refine ⟨_, rfl, ?_, rfl⟩
      rw [result, ← mopValue_addMod]
      exact aluOp_rd .addSubLuiAuipcMop (mopValue Mersenne31.addMod) false _ _
  | submod =>
      refine ⟨_, rfl, ?_, rfl⟩
      rw [result, ← mopValue_subMod]
      exact aluOp_rd .addSubLuiAuipcMop (mopValue Mersenne31.subMod) false _ _
  | mulmod =>
      refine ⟨_, rfl, ?_, rfl⟩
      rw [result, ← mopValue_mulMod]
      exact aluOp_rd .addSubLuiAuipcMop (mopValue Mersenne31.mulMod) false _ _

end Executor

/-! ## Completeness -/

section Completeness

variable {op : AddSubLuiAuipcMopOp} {entry : DecoderTableEntry} {rs1 rs2 imm pc : U32}

/-- The assignment for given operands, up to the carries. -/
def AddSubLuiAuipcMopOp.honestRow (op : AddSubLuiAuipcMopOp) (entry : DecoderTableEntry)
    (rs1 rs2 imm pc : U32) (isZero : Bool) (carryIntermediate overflow : F)
    (bumpPc : BumpPcWitness) : AddSubLuiAuipcMopRow where
  decoder := entry
  pcNext := Register.ofU32 (pc + 4)
  perform other := if op = other then 1 else 0
  rs1 := Register.ofU32 rs1
  rs2 := Register.ofU32 rs2
  out := Register.ofU32 (op.result rs1 rs2 imm pc)
  intermediateTmp := Register.ofU32 (op.result rs1 rs2 imm pc - 2147483647)
  carryIntermediate := carryIntermediate
  overflow := overflow
  mulmodTmp := (Register.ofU32 rs1).toField * (Register.ofU32 rs2).toField
  rdWrite := if isZero then Register.ofU32 0 else Register.ofU32 (op.result rs1 rs2 imm pc)
  bumpPc := bumpPc

theorem residue_lt (z : ℤ) : (residue z).toNat < 2147483647 := by
  have nonneg := Int.emod_nonneg z (b := 2147483647) (by decide)
  have below := Int.emod_lt_of_pos z (b := 2147483647) (by decide)
  rw [residue, BitVec.toNat_ofInt]
  omega

/-- The field element of a representative is the integer. -/
theorem toField_residue (z : ℤ) : (Register.ofU32 (residue z)).toField = (z : F) := by
  have nonneg := Int.emod_nonneg z (b := 2147483647) (by decide)
  have below := Int.emod_lt_of_pos z (b := 2147483647) (by decide)
  have value : ((residue z).toNat : ℤ) = z % 2147483647 := by
    rw [residue, BitVec.toNat_ofInt]
    omega
  rw [(Register.rangeChecked_ofU32 _).toField_eq, Register.value_ofU32]
  have cast := congrArg (Int.cast : ℤ → F) value
  rw [Int.cast_natCast] at cast
  rw [cast]
  exact ZMod.intCast_mod z modulus

theorem toField_ofU32 (word : U32) : (Register.ofU32 word).toField = (word.toNat : F) := by
  rw [(Register.rangeChecked_ofU32 word).toField_eq, Register.value_ofU32]

/-- A representative minus the modulus borrows. -/
theorem exists_canonical_relation {out : U32} (canonical : out.toNat < 2147483647) :
    ∃ intermediate, IsBoolean intermediate ∧
      AddRelation (Register.ofU32 (out - 2147483647)) modulusRegister (Register.ofU32 out)
        intermediate 1 := by
  have modulusLimbs : modulusRegister = Register.ofU32 2147483647 := by decide
  have modulusValue : (2147483647 : U32).toNat = 2147483647 := rfl
  have sum : (out - 2147483647).toNat + (2147483647 : U32).toNat =
      out.toNat + 2 ^ 32 * true.toNat := by
    rw [BitVec.toNat_sub, modulusValue, Bool.toNat_true]
    omega
  rw [modulusLimbs]
  exact exists_addRelation sum

theorem exists_sum_relation {x y z : U32} (sum : z = x + y) :
    ∃ carryIntermediate overflow, IsBoolean carryIntermediate ∧ IsBoolean overflow ∧
      AddRelation (Register.ofU32 x) (Register.ofU32 y) (Register.ofU32 z) carryIntermediate
        overflow := by
  rcases exists_carry x y with ⟨carry, total⟩
  rw [← sum] at total
  rcases exists_addRelation total with ⟨intermediate, boolean, relation⟩
  exact ⟨intermediate, fromBoolean carry, boolean, isBoolean_fromBoolean carry, relation⟩

def AddSubLuiAuipcMopOp.isMop (op : AddSubLuiAuipcMopOp) : Prop :=
  op = addmod ∨ op = submod ∨ op = mulmod

/-- The relation of an operation has carries, with the borrow set for the field operations. -/
theorem AddSubLuiAuipcMopOp.exists_carries (op : AddSubLuiAuipcMopOp) (rs1 rs2 : U32)
    (isZero : Bool) (bumpPc : BumpPcWitness) (immLimbs : entry.imm = Register.ofU32 imm)
    (pcLimbs : entry.pc = Register.ofU32 pc) :
    ∃ carryIntermediate overflow, IsBoolean carryIntermediate ∧ IsBoolean overflow ∧
      (op.isMop → overflow = 1) ∧
      let row := op.honestRow entry rs1 rs2 imm pc isZero carryIntermediate overflow bumpPc
      AddRelation (row.relation op).a (row.relation op).b (row.relation op).c
        carryIntermediate overflow := by
  have canonical (z : ℤ) := exists_canonical_relation (residue_lt z)
  cases op with
  | add =>
      have sum : rs1 + rs2 = rs1 + rs2 := rfl
      rcases exists_sum_relation sum with ⟨intermediate, overflow, boolean, outBoolean, relation⟩
      exact ⟨intermediate, overflow, boolean, outBoolean, by simp [isMop], relation⟩
  | addi =>
      have sum : rs1 + imm = rs1 + imm := rfl
      rcases exists_sum_relation sum with ⟨intermediate, overflow, boolean, outBoolean, relation⟩
      refine ⟨intermediate, overflow, boolean, outBoolean, by simp [isMop], ?_⟩
      simp only [AddSubLuiAuipcMopRow.relation, honestRow, immLimbs]
      exact relation
  | sub =>
      have sum : rs1 = (rs1 - rs2) + rs2 := (BitVec.sub_add_cancel rs1 rs2).symm
      rcases exists_sum_relation sum with ⟨intermediate, overflow, boolean, outBoolean, relation⟩
      exact ⟨intermediate, overflow, boolean, outBoolean, by simp [isMop], relation⟩
  | lui =>
      have sum : imm = 0 + imm := (BitVec.zero_add imm).symm
      rcases exists_sum_relation sum with ⟨intermediate, overflow, boolean, outBoolean, relation⟩
      refine ⟨intermediate, overflow, boolean, outBoolean, by simp [isMop], ?_⟩
      have zero : (⟨0, 0⟩ : Register) = Register.ofU32 0 := by decide
      simp only [AddSubLuiAuipcMopRow.relation, honestRow, immLimbs, zero]
      exact relation
  | auipc =>
      have sum : pc + imm = pc + imm := rfl
      rcases exists_sum_relation sum with ⟨intermediate, overflow, boolean, outBoolean, relation⟩
      refine ⟨intermediate, overflow, boolean, outBoolean, by simp [isMop], ?_⟩
      simp only [AddSubLuiAuipcMopRow.relation, honestRow, immLimbs, pcLimbs]
      exact relation
  | addmod =>
      rcases canonical (rs1.toNat + rs2.toNat) with ⟨intermediate, boolean, relation⟩
      exact ⟨intermediate, 1, boolean, isBoolean_iff.mpr (Or.inr rfl), fun _ => rfl, relation⟩
  | submod =>
      rcases canonical (rs1.toNat - rs2.toNat) with ⟨intermediate, boolean, relation⟩
      exact ⟨intermediate, 1, boolean, isBoolean_iff.mpr (Or.inr rfl), fun _ => rfl, relation⟩
  | mulmod =>
      rcases canonical (rs1.toNat * rs2.toNat) with ⟨intermediate, boolean, relation⟩
      exact ⟨intermediate, 1, boolean, isBoolean_iff.mpr (Or.inr rfl), fun _ => rfl, relation⟩

/-- Every operand pair has a satisfying row. -/
theorem AddSubLuiAuipcMopOp.exists_row (op : AddSubLuiAuipcMopOp) (rs1 rs2 : U32)
    {isZero : Bool} (mask : entry.circuitFamilyExtraMask = ((2 ^ op.bit : Nat) : F))
    (rdIsZero : entry.rdIsZero = fromBoolean isZero)
    (immLimbs : entry.imm = Register.ofU32 imm) (pcLimbs : entry.pc = Register.ofU32 pc)
    (aligned : pc.toNat % 4 = 0) :
    ∃ row : AddSubLuiAuipcMopRow, row.Satisfied ∧ row.decoder = entry ∧
      row.rs1 = Register.ofU32 rs1 ∧ row.rs2 = Register.ofU32 rs2 := by
  rcases exists_bumpPc pc aligned with ⟨bumpPc, pcStep⟩
  rcases op.exists_carries rs1 rs2 isZero bumpPc immLimbs pcLimbs with
    ⟨intermediate, overflow, intermediateBoolean, overflowBoolean, borrow, relation⟩
  refine ⟨op.honestRow entry rs1 rs2 imm pc isZero intermediate overflow bumpPc, ?_, rfl, rfl,
    rfl⟩
  have split : SplitIntoBitmask (bitmaskFlags (2 ^ op.bit) 8) ((2 ^ op.bit : Nat) : F) :=
    splitIntoBitmask_flags (by cases op <;> decide)
  have flags : (AddSubLuiAuipcMopOp.all.map fun other => if op = other then (1 : F) else 0) =
      bitmaskFlags (2 ^ op.bit) 8 := by
    cases op <;> rfl
  constructor
  · rw [← mask, ← flags] at split
    exact split
  · exact Register.rangeChecked_ofU32 _
  · exact Register.rangeChecked_ofU32 _
  · exact (enforceAddSub_iff fun _ => rfl).mpr ⟨intermediateBoolean, overflowBoolean, relation⟩
  · by_cases selected : op = AddSubLuiAuipcMopOp.addmod
    · simp only [honestRow, selected, result, toField_residue]
      rw [toField_ofU32, toField_ofU32]
      push_cast
      ring
    · simp only [honestRow, if_neg selected, zero_mul]
  · by_cases selected : op = AddSubLuiAuipcMopOp.addmod
    · simp only [honestRow, borrow (Or.inl selected), sub_self, mul_zero]
    · simp only [honestRow, if_neg selected, zero_mul]
  · by_cases selected : op = AddSubLuiAuipcMopOp.submod
    · simp only [honestRow, selected, result, toField_residue]
      rw [toField_ofU32, toField_ofU32]
      push_cast
      ring
    · simp only [honestRow, if_neg selected, zero_mul]
  · by_cases selected : op = AddSubLuiAuipcMopOp.submod
    · simp only [honestRow, borrow (Or.inr (Or.inl selected)), sub_self, mul_zero]
    · simp only [honestRow, if_neg selected, zero_mul]
  · exact sub_self _
  · by_cases selected : op = AddSubLuiAuipcMopOp.mulmod
    · simp only [honestRow, selected, result, toField_residue]
      rw [toField_ofU32, toField_ofU32]
      push_cast
      ring
    · simp only [honestRow, if_neg selected, zero_mul]
  · by_cases selected : op = AddSubLuiAuipcMopOp.mulmod
    · simp only [honestRow, borrow (Or.inr (Or.inr selected)), sub_self, mul_zero]
    · simp only [honestRow, if_neg selected, zero_mul]
  · simp only [honestRow, rdIsZero]
    exact maskRd_select _ isZero
  · simp only [honestRow, pcLimbs]
    exact pcStep

end Completeness

/-! ## The circuit is exact -/

section Exact

variable {supportedCsrs : List U16} {i : Nat} {opcode : U32} {entry : DecoderTableEntry}
  {C : Type} [Counters C] {romBits : Nat} {ND : Type} [Vm.NonDeterminismCSRSource ND]

theorem exists_addSubLuiAuipcMopOp
    (produced : preprocessOpcode .addSubLuiAuipcMopDecoder supportedCsrs i opcode =
      some (some entry)) :
    ∃ op : AddSubLuiAuipcMopOp, op.arm.Covers opcode ∧
      entry = (op.arm.decoded opcode).entry i := by
  rcases preprocessOpcode_eq_some produced with ⟨arm, member, covers, rfl, _⟩
  rw [OpcodeFamilyDecoder.arms, AddSubLuiAuipcMopOp.arms_eq] at member
  rcases List.mem_map.mp member with ⟨op, _, rfl⟩
  exact ⟨op, covers, rfl⟩

/-- The addition circuit is exact.  A row of its decoder belongs to one operation.  Every
satisfying assignment over register values of two limbs writes the result of the operation,
masked for `x0`, and moves to the next word.  Every state of the executor at this position has a
satisfying assignment over its operands that writes what the handler writes. -/
theorem addSubLuiAuipcMop_exact
    (produced : preprocessOpcode .addSubLuiAuipcMopDecoder supportedCsrs i opcode =
      some (some entry)) :
    ∃ op : AddSubLuiAuipcMopOp, op.arm.Covers opcode ∧
      (∀ row : AddSubLuiAuipcMopRow, row.Satisfied → row.decoder = entry →
        row.rs1.RangeChecked → row.rs2.RangeChecked →
        row.rdWrite.RangeChecked ∧ row.pcNext.RangeChecked ∧
          row.rdWrite.value = State.maskRd (op.arm.decoded opcode).rdIndex
            (op.result row.rs1.value row.rs2.value (op.arm.decoded opcode).imm
              (BitVec.ofNat 32 (4 * i))) ∧
          row.pcNext.value = BitVec.ofNat 32 (4 * i) + 4) ∧
      ∀ machine : Vm.Machine C romBits ND, machine.state.pc = BitVec.ofNat 32 (4 * i) →
        ∃ (machine' : Vm.Machine C romBits ND) (row : AddSubLuiAuipcMopRow),
          Vm.execute machine ((op.arm.decoded opcode).instruction op.name) =
            some (machine', []) ∧
          row.Satisfied ∧ row.decoder = entry ∧ row.rs1.RangeChecked ∧ row.rs2.RangeChecked ∧
          row.rs1.value = (machine.state.registers (op.arm.decoded opcode).rs1Index).value ∧
          row.rs2.value = (machine.state.registers (op.arm.decoded opcode).rs2Index).value ∧
          row.rdWrite.value = (machine'.state.registers (op.arm.decoded opcode).rdIndex).value ∧
          row.pcNext.value = machine'.state.pc := by
  rcases exists_addSubLuiAuipcMopOp produced with ⟨op, covers, rfl⟩
  generalize dataIs : op.arm.decoded opcode = data
  have mask : (data.entry i).circuitFamilyExtraMask = ((2 ^ op.bit : Nat) : F) := by
    rw [← dataIs, ← op.arm_bits]
    rfl
  have rdIsZero : data.rdIsZero = decide (data.rdIndex = 0) := by
    rw [← dataIs]
    rfl
  have sound (row : AddSubLuiAuipcMopRow) (satisfied : row.Satisfied)
      (decoder : row.decoder = data.entry i) (rs1Range : row.rs1.RangeChecked)
      (rs2Range : row.rs2.RangeChecked) :
      row.rdWrite.RangeChecked ∧ row.pcNext.RangeChecked ∧
        row.rdWrite.value = State.maskRd data.rdIndex
          (op.result row.rs1.value row.rs2.value data.imm (BitVec.ofNat 32 (4 * i))) ∧
        row.pcNext.value = BitVec.ofNat 32 (4 * i) + 4 := by
    have rowMask : row.decoder.circuitFamilyExtraMask = ((2 ^ op.bit : Nat) : F) := by
      rw [decoder, mask]
    have immLimbs : row.decoder.imm = Register.ofU32 data.imm := by
      rw [decoder, data.entry_imm]
    have pcLimbs : row.decoder.pc = Register.ofU32 (BitVec.ofNat 32 (4 * i)) := by
      rw [decoder, data.entry_pc]
    have out := satisfied.out_value rowMask rs1Range rs2Range immLimbs pcLimbs
    have masked := satisfied.rdWrite
    have step := satisfied.pcStep
    rw [decoder] at masked
    rw [pcLimbs] at step
    have rdWrite := masked.eq
    rw [satisfied.outRange.eq_ofU32, rdIsZero, maskRd_ofU32, out] at rdWrite
    have next := step.value_eq (Register.rangeChecked_ofU32 _) (by
      rw [Register.value_ofU32]
      exact toNat_pc_mod i)
    refine ⟨?_, next.1, ?_, ?_⟩
    · rw [rdWrite]
      exact Register.rangeChecked_ofU32 _
    · rw [rdWrite, Register.value_ofU32]
    · rw [next.2, Register.value_ofU32]
  refine ⟨op, covers, ?_, ?_⟩
  · rw [dataIs]
    exact sound
  · intro machine atPc
    rw [dataIs]
    rcases op.execute_eq machine data with ⟨machine', executed, written, moved⟩
    rcases op.exists_row (machine.state.registers data.rs1Index).value
      (machine.state.registers data.rs2Index).value mask rfl (data.entry_imm i) (data.entry_pc i)
      (toNat_pc_mod i) with ⟨row, satisfied, decoder, rs1, rs2⟩
    have rs1Range : row.rs1.RangeChecked := rs1 ▸ Register.rangeChecked_ofU32 _
    have rs2Range : row.rs2.RangeChecked := rs2 ▸ Register.rangeChecked_ofU32 _
    rcases sound row satisfied decoder rs1Range rs2Range with ⟨_, _, rdWrite, pcNext⟩
    refine ⟨machine', row, executed, satisfied, decoder, rs1Range, rs2Range, ?_, ?_, ?_, ?_⟩
    · rw [rs1, Register.value_ofU32]
    · rw [rs2, Register.value_ofU32]
    · rw [rdWrite, written, rs1, rs2, Register.value_ofU32, Register.value_ofU32, atPc]
    · rw [pcNext, moved, atPc]

/-- A machine that multiplies the two largest words in the field. -/
def mulmodMachine : Vm.Machine DelegationsCounters 6 Unit where
  state := { State.initialWithCounters .zero with registers := fun _ => ⟨0, 0xffffffff⟩ }
  ram := ⟨fun _ => ⟨0, 0⟩, 0⟩
  nd := ()

theorem addSubLuiAuipcMop_exact_mulmod :
    ∃ row : AddSubLuiAuipcMopRow, row.Satisfied ∧ row.rs1.value = 0xffffffff ∧
      row.rs2.value = 0xffffffff ∧ row.rdWrite.value = 1 ∧ row.pcNext.value = 4 := by
  have produced : preprocessOpcode .addSubLuiAuipcMopDecoder [] 0 0x8ac5c573 =
      some (some ((AddSubLuiAuipcMopOp.mulmod.arm.decoded 0x8ac5c573).entry 0)) := by decide
  rcases @addSubLuiAuipcMop_exact [] 0 0x8ac5c573 _ DelegationsCounters _ 6 Unit _ produced with
    ⟨op, covers, sound, complete⟩
  have isMulmod : op = .mulmod := by
    cases op <;> first | rfl | exact absurd covers (by decide)
  subst isMulmod
  rcases complete mulmodMachine rfl with
    ⟨machine', row, _, satisfied, decoder, rs1Range, rs2Range, rs1, rs2, _, _⟩
  rcases sound row satisfied decoder rs1Range rs2Range with ⟨_, _, rdWrite, pcNext⟩
  refine ⟨row, satisfied, rs1, rs2, ?_, pcNext⟩
  rw [rdWrite, rs1, rs2]
  decide

end Exact

end Airbender.Circuit
