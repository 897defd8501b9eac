import Airbender.Ir.Preprocess

/-!
# Register fields of preprocessed instructions

The preprocessor clears the register fields an instruction does not use, and only
emits the three delegation types.
-/

namespace Airbender

/-- The unused register fields are zero, and a delegation is one of `delegations`. -/
def Instruction.Canonical (delegations : List U32) (instr : Instruction) : Prop :=
  match instr.name with
  | .lui | .auipc | .jal | .zicsrNonDeterminismRead => instr.rs1 = 0 ∧ instr.rs2 = 0
  | .jalr | .addi | .slli | .srli | .srai | .slti | .sltiu | .xori | .ori | .andi
  | .lb | .lh | .lw | .lbu | .lhu => instr.rs2 = 0
  | .zicsrNonDeterminismWrite => instr.rs2 = 0 ∧ instr.rd = 0
  | .zicsrDelegation =>
      instr.rs1 = 0 ∧ instr.rs2 = 0 ∧ instr.rd = 0 ∧ instr.imm ∈ delegations
  | _ => True

namespace Ir

open Instruction

variable {opt : DecodingOptions} {opcode : U32} {instr : Instruction}

/-- The delegations a word encodes on its own. -/
def singleDelegations : List U32 := [DelegationType.bigInt.code]

/-- The delegations the preprocessor emits. -/
def emittedDelegations : List U32 :=
  [DelegationType.bigInt.code, DelegationType.blake.code, DelegationType.keccak.code]

theorem illegalInstr_canonical (delegations : List U32) :
    illegalInstr.Canonical delegations := trivial

theorem ifSupported_canonical
    {delegations : List U32} (supported : Bool) (canonical : instr.Canonical delegations) :
    (ifSupported supported instr).Canonical delegations := by
  cases supported with
  | true => exact canonical
  | false => exact illegalInstr_canonical _

theorem decodeBranch_canonical (decoded : decodeBranch opcode = some instr) :
    instr.Canonical singleDelegations := by
  unfold decodeBranch at decoded
  dsimp only at decoded
  split at decoded
  all_goals cases decoded
  all_goals exact trivial

theorem decodeOpImm_canonical (decoded : decodeOpImm opcode = some instr) :
    instr.Canonical singleDelegations := by
  unfold decodeOpImm at decoded
  dsimp only at decoded
  split at decoded
  all_goals (try split at decoded)
  all_goals (try split at decoded)
  all_goals cases decoded
  all_goals exact rfl

theorem decodeMulDiv_canonical : (decodeMulDiv opt opcode).Canonical singleDelegations := by
  unfold decodeMulDiv
  dsimp only
  split
  all_goals exact ifSupported_canonical _ trivial

theorem decodeBasicOp_canonical (decoded : decodeBasicOp opcode = some instr) :
    instr.Canonical singleDelegations := by
  unfold decodeBasicOp at decoded
  dsimp only at decoded
  split at decoded
  all_goals (try split at decoded)
  all_goals (try split at decoded)
  all_goals cases decoded
  all_goals exact trivial

theorem decodeLoad_canonical (decoded : decodeLoad opt opcode = some instr) :
    instr.Canonical singleDelegations := by
  unfold decodeLoad at decoded
  dsimp only at decoded
  split at decoded
  all_goals cases decoded
  all_goals first | exact rfl | exact ifSupported_canonical _ rfl

theorem decodeStore_canonical (decoded : decodeStore opt opcode = some instr) :
    instr.Canonical singleDelegations := by
  unfold decodeStore at decoded
  dsimp only at decoded
  split at decoded
  all_goals cases decoded
  all_goals first | exact trivial | exact ifSupported_canonical _ trivial

theorem decodeMop_canonical (decoded : decodeMop opt opcode = some instr) :
    instr.Canonical singleDelegations := by
  unfold decodeMop at decoded
  dsimp only at decoded
  split at decoded
  · split at decoded
    all_goals cases decoded
    all_goals exact ifSupported_canonical _ trivial
  · cases decoded

theorem decodeZicsr_canonical (decoded : decodeZicsr opcode = some (.single instr)) :
    instr.Canonical singleDelegations := by
  unfold decodeZicsr at decoded
  dsimp only at decoded
  split_ifs at decoded
  all_goals cases decoded
  all_goals first | exact ⟨rfl, rfl⟩ | exact ⟨rfl, rfl, rfl, List.mem_singleton.mpr rfl⟩ | exact trivial

theorem decodeSystem_canonical (decoded : decodeSystem opt opcode = some (.single instr)) :
    instr.Canonical singleDelegations := by
  unfold decodeSystem at decoded
  split_ifs at decoded
  · obtain ⟨mop, mopDecoded, same⟩ := Option.map_eq_some_iff.mp decoded
    cases same
    exact decodeMop_canonical mopDecoded
  · exact decodeZicsr_canonical decoded

private theorem canonical_of_map
    {decode : Option Instruction}
    (canonical : ∀ decoded, decode = some decoded → decoded.Canonical singleDelegations)
    (decoded : decode.map DecodedWord.single = some (DecodedWord.single instr)) :
    instr.Canonical singleDelegations := by
  obtain ⟨inner, found, same⟩ := Option.map_eq_some_iff.mp decoded
  rw [← DecodedWord.single.inj same]
  exact canonical inner found

theorem decodeWord_canonical (decoded : decodeWord opt opcode = some (.single instr)) :
    instr.Canonical singleDelegations := by
  unfold decodeWord at decoded
  dsimp only at decoded
  split at decoded
  · cases decoded
    exact ⟨rfl, rfl⟩
  split at decoded
  · cases decoded
    exact ⟨rfl, rfl⟩
  split at decoded
  · cases decoded
    exact ⟨rfl, rfl⟩
  split at decoded
  · cases decoded
    exact rfl
  split at decoded
  · exact canonical_of_map (fun _ => decodeBranch_canonical) decoded
  split at decoded
  · exact canonical_of_map (fun _ => decodeOpImm_canonical) decoded
  split at decoded
  · split at decoded
    · cases decoded
      exact decodeMulDiv_canonical
    · exact canonical_of_map (fun _ => decodeBasicOp_canonical) decoded
  split at decoded
  · exact canonical_of_map (fun _ => decodeLoad_canonical) decoded
  split at decoded
  · exact canonical_of_map (fun _ => decodeStore_canonical) decoded
  split at decoded
  · exact decodeSystem_canonical decoded
  · cases decoded
    exact illegalInstr_canonical _

theorem canonical_mono
    {delegations more : List U32} (subset : delegations ⊆ more)
    (canonical : instr.Canonical delegations) : instr.Canonical more := by
  unfold Instruction.Canonical at canonical ⊢
  split at canonical
  all_goals first
    | exact canonical
    | exact ⟨canonical.1, canonical.2.1, canonical.2.2.1, subset canonical.2.2.2⟩

end Ir

end Airbender
