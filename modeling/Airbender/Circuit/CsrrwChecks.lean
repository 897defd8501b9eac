import Airbender.Circuit.DecoderExact
import Airbender.Ir.Preprocess

/-!
# The checks of `CSRRW`

A `CSRRW` of the non-determinism register reads or writes but not both, and every other one uses no
register.  The decoder of the circuit means to check this of the source and the destination, after
it has cleared the index that it checks.
-/

namespace Airbender.Circuit

open Riscv

/-- The circuit accepts the word as a `CSRRW`. -/
def AcceptsCsrrw (word : U32) : Prop :=
  Operation.csrrw.Encodes word ∧ OpcodeFamilyDecoder.shiftBinaryCsrrwDecoder.Accepts word

/-- A source or a destination for the non-determinism register, neither for other registers. -/
def CsrrwWellFormed (word : U32) : Prop :=
  (csr word = 0x7c0 → rs1 word = 0 ∨ rd word = 0) ∧
    (csr word ≠ 0x7c0 → rs1 word = 0 ∧ rd word = 0)

instance (word : U32) : Decidable (CsrrwWellFormed word) := inferInstanceAs (Decidable (_ ∧ _))

/-- The registers of non-determinism and of the delegations. -/
def callRegisters : List U32 :=
  [nonDeterminismCsr, blake2sDelegationCsrRegister, bigintOpsWithControlCsrRegister,
    keccakSpecial5CsrRegister]

/-- The assertions of `preprocess_bytecode` on a word accept it. -/
def PreprocessAsserts (word : U32) : Prop := Ir.decodeZicsr word ≠ none

variable {word : U32}

/-- What the assertions of the decoder leave of the checks. -/
theorem acceptsCsrrw_iff :
    AcceptsCsrrw word ↔ Operation.csrrw.Encodes word ∧ (csr word = 0x7c0 ∨ rs1 word = 0) := by
  have member : Operation.csrrw ∈ Operation.supported true := by decide
  have inMachine : OpcodeFamilyDecoder.shiftBinaryCsrrwDecoder ∈
      opcodesForFullMachineWithMemWordAccessSpecialization true := by decide
  rw [AcceptsCsrrw, and_congr_right_iff]
  intro encodes
  have covers := (operationArm_covers_iff member).mpr encodes
  rw [OpcodeFamilyDecoder.Accepts, defineDecoderSubspace_eq inMachine member encodes rfl,
    operationArm_result covers]
  by_cases allowed : csr word = 0x7c0 ∨ rs1 word = 0
  · rw [if_pos fun _ => allowed]
    exact ⟨fun _ => allowed, fun _ => ⟨_, rfl⟩⟩
  · rw [if_neg fun all => allowed (all rfl)]
    constructor
    · rintro ⟨extended, impossible⟩
      cases impossible
    · intro holds
      exact absurd holds allowed

/-- Of the accepted words, those are well formed that write no register, or that read one of the
non-determinism register into it. -/
theorem csrrwWellFormed_iff (accepted : AcceptsCsrrw word) :
    CsrrwWellFormed word ↔ rd word = 0 ∨ (csr word = 0x7c0 ∧ rs1 word = 0) := by
  have checked := (acceptsCsrrw_iff.mp accepted).2
  rw [CsrrwWellFormed]
  by_cases isNonDeterminism : csr word = 0x7c0
  · constructor
    · rintro ⟨either, _⟩
      rcases either isNonDeterminism with reads | writes
      · exact Or.inr ⟨isNonDeterminism, reads⟩
      · exact Or.inl writes
    · rintro (writes | ⟨_, reads⟩)
      · exact ⟨fun _ => Or.inr writes, fun other => absurd isNonDeterminism other⟩
      · exact ⟨fun _ => Or.inl reads, fun other => absurd isNonDeterminism other⟩
  · have reads := checked.resolve_left isNonDeterminism
    constructor
    · rintro ⟨_, neither⟩
      exact Or.inl (neither isNonDeterminism).2
    · rintro (writes | ⟨same, _⟩)
      · exact ⟨fun same => absurd same isNonDeterminism, fun _ => ⟨reads, writes⟩⟩
      · exact absurd same isNonDeterminism

/-- The assertions of `preprocess_bytecode` are the checks, on the registers that it knows. -/
theorem preprocessAsserts_iff (encodes : Operation.csrrw.Encodes word)
    (known : (csr word).setWidth 32 ∈ callRegisters) :
    PreprocessAsserts word ↔ CsrrwWellFormed word := by
  have isCsrrw : Ir.funct3Bits word = 0b001 := by
    rw [Ir.funct3Bits_eq]
    exact encodes.2.1 _ rfl
  have imm := Ir.ITypeOpcode.imm_eq word
  have nonDeterminism := csr_eq_nonDeterminism_iff word
  rw [PreprocessAsserts, CsrrwWellFormed, Ir.decodeZicsr, imm, Ir.getFormalRs1Bits_eq,
    Ir.getRdBits_eq, isCsrrw]
  simp only [if_true]
  by_cases isCsr : csr word = 0x7c0
  · rw [if_pos (nonDeterminism.mpr isCsr)]
    simp only [isCsr, not_true_eq_false, false_implies, and_true, true_implies, ne_eq]
    by_cases reads : rs1 word = 0
    · rw [if_pos reads]
      simp only [reads, true_or, reduceCtorEq, not_false_eq_true]
    · rw [if_neg reads]
      by_cases writes : rd word = 0
      · rw [if_pos writes]
        simp only [writes, or_true, reduceCtorEq, not_false_eq_true]
      · rw [if_neg writes]
        simp only [reads, writes, or_self, not_true_eq_false]
  · have other : ¬ (csr word).setWidth 32 = nonDeterminismCsr :=
      fun same => isCsr (nonDeterminism.mp same)
    rw [if_neg other]
    simp only [isCsr, not_false_eq_true, true_implies, false_implies, true_and, ne_eq]
    have delegation : (csr word).setWidth 32 = blake2sDelegationCsrRegister ∨
        (csr word).setWidth 32 = bigintOpsWithControlCsrRegister ∨
          (csr word).setWidth 32 = keccakSpecial5CsrRegister := by
      rcases List.mem_cons.mp known with same | others
      · exact absurd same other
      · simpa [callRegisters] using others
    by_cases unused : rs1 word = 0 ∧ rd word = 0
    · rcases delegation with same | same | same
      all_goals
        rw [same]
        simp [unused, blake2sDelegationCsrRegister, bigintOpsWithControlCsrRegister,
          keccakSpecial5CsrRegister, nonDeterminismCsr]
    · rcases delegation with same | same | same
      all_goals
        rw [same]
        simp [blake2sDelegationCsrRegister, bigintOpsWithControlCsrRegister,
          keccakSpecial5CsrRegister, nonDeterminismCsr]

/-- The decoder misses the check of the destination: exactly the accepted words that write a
register, other than reads of the non-determinism register, fail it, and `preprocess_bytecode`
rejects exactly these on the registers that it knows. -/
theorem csrrwChecks_iff (word : U32) (accepted : AcceptsCsrrw word) :
    (CsrrwWellFormed word ↔ rd word = 0 ∨ (csr word = 0x7c0 ∧ rs1 word = 0)) ∧
      ((csr word).setWidth 32 ∈ callRegisters →
        (PreprocessAsserts word ↔ rd word = 0 ∨ (csr word = 0x7c0 ∧ rs1 word = 0))) := by
  have wellFormed := csrrwWellFormed_iff accepted
  refine ⟨wellFormed, ?_⟩
  intro known
  rw [preprocessAsserts_iff accepted.1 known, wellFormed]

/-- `csrrw x1, 0x7c7, x0` is well formed but for its destination. -/
theorem csrrwChecks_iff_blake :
    CsrrwWellFormed 0x7c7010f3 ↔ rd 0x7c7010f3 = 0 ∨ (csr 0x7c7010f3 = 0x7c0 ∧ rs1 0x7c7010f3 = 0) :=
  (csrrwChecks_iff 0x7c7010f3 (acceptsCsrrw_iff.mpr ⟨⟨rfl, by decide, by decide⟩, by decide⟩)).1

/-- `csrrw x1, 0x7c0, x1` is accepted. -/
theorem csrrw_reads_and_writes :
    AcceptsCsrrw 0x7c0090f3 ∧ ¬ CsrrwWellFormed 0x7c0090f3 ∧ ¬ PreprocessAsserts 0x7c0090f3 := by
  refine ⟨acceptsCsrrw_iff.mpr ⟨⟨rfl, by decide, by decide⟩, by decide⟩, by decide, ?_⟩
  intro asserts
  exact asserts (by decide)

end Airbender.Circuit
