import Airbender.Ir.Canonical
import Airbender.Vm.Blake2sCall
import Airbender.Vm.Step

/-!
# Folded delegation calls

The preprocessor folds a run of equal delegation words into one instruction, and the
executor moves past the run by the number of calls it performs.  The two numbers are
computed independently.
-/

namespace Airbender

open Ir Vm Bigint

/-! ## Positions of the preprocessor -/

section Positions

variable (opt : DecodingOptions) (bytecode : List U32)

/-- The positions the loop of the preprocessor stops at. -/
inductive Visits : Nat → Prop
  | start : Visits 0
  | next {i numWords : Nat} {instr : Instruction} :
      Visits i → preprocessAt opt bytecode i = some (instr, numWords) → Visits (i + numWords)

/-- A position inside a folded run. -/
def FoldedAway (position : Nat) : Prop :=
  ∃ i instr numWords, Visits opt bytecode i ∧
    preprocessAt opt bytecode i = some (instr, numWords) ∧
      i < position ∧ position < i + numWords

variable {opt bytecode}

/-- What is emitted at one position: a single instruction, or a folded run. -/
theorem preprocessAt_cases
    {i numWords : Nat} {instr : Instruction}
    (run : preprocessAt opt bytecode i = some (instr, numWords)) :
    (instr.Canonical singleDelegations ∧ numWords = 1) ∨
      (instr = .fromImm .zicsrDelegation 0 0 0 DelegationType.blake.code ∧
        (numWords = 7 ∨ numWords = 10)) ∨
      (instr = .fromImm .zicsrDelegation 0 0 0 DelegationType.keccak.code ∧
        numWords = numDelegationCallsForKeccakF1600) := by
  simp only [preprocessAt, Option.bind_eq_bind, Option.bind_eq_some_iff] at run
  obtain ⟨opcode, _, decoded, word, emitted⟩ := run
  cases decoded with
  | single instruction =>
      obtain ⟨rfl, rfl⟩ := Prod.mk.inj (Option.some.inj emitted)
      exact Or.inl ⟨decodeWord_canonical word, rfl⟩
  | blakeRun =>
      simp only [Option.bind_eq_some_iff] at emitted
      obtain ⟨numCalls, _, emitted⟩ := emitted
      split at emitted
      · next expected =>
          obtain ⟨rfl, rfl⟩ := Prod.mk.inj (Option.some.inj emitted)
          exact Or.inr (Or.inl ⟨rfl, expected⟩)
      · exact absurd emitted (by simp)
  | keccakRun =>
      simp only [Option.bind_eq_some_iff] at emitted
      obtain ⟨numCalls, _, emitted⟩ := emitted
      split at emitted
      · next expected =>
          obtain ⟨rfl, rfl⟩ := Prod.mk.inj (Option.some.inj emitted)
          exact Or.inr (Or.inr ⟨rfl, expected⟩)
      · exact absurd emitted (by simp)

theorem countCallsFrom_eq_some
    {opcode : U32} {i j remaining count : Nat}
    (counted : countCallsFrom bytecode opcode i j remaining = some count) :
    count = 0 ∨ ∀ m, j ≤ m → m < count → bytecode[i + m]? = some opcode := by
  induction remaining generalizing j with
  | zero => exact Or.inl (Option.some.inj counted).symm
  | succ remaining inductionHypothesis =>
      rw [countCallsFrom] at counted
      split at counted
      · exact absurd counted (by simp)
      · next word found =>
          split at counted
          · next same =>
              rcases inductionHypothesis counted with none | others
              · exact Or.inl none
              · refine Or.inr fun m lower upper => ?_
                rcases Nat.eq_or_lt_of_le lower with rfl | above
                · rw [found, same]
                · exact others m above upper
          · refine Or.inr fun m lower upper => ?_
            rw [← Option.some.inj counted] at upper
            omega

/-- A folded run consists of equal words. -/
theorem preprocessAt_equal
    {i numWords : Nat} {instr : Instruction}
    (run : preprocessAt opt bytecode i = some (instr, numWords)) {j : Nat}
    (inside : j < numWords) : bytecode[i + j]? = bytecode[i]? := by
  have equal_of_count {opcode : U32} {remaining : Nat}
      (found : bytecode[i]? = some opcode)
      (counted : countCallsFrom bytecode opcode i 1 remaining = some numWords) :
      bytecode[i + j]? = bytecode[i]? := by
    rcases countCallsFrom_eq_some counted with none | others
    · omega
    · rcases Nat.eq_zero_or_pos j with rfl | positive
      · rfl
      · rw [others j positive inside, found]
  simp only [preprocessAt, Option.bind_eq_bind, Option.bind_eq_some_iff] at run
  obtain ⟨opcode, found, decoded, word, emitted⟩ := run
  cases decoded with
  | single instruction =>
      obtain ⟨rfl, rfl⟩ := Prod.mk.inj (Option.some.inj emitted)
      rw [Nat.lt_one_iff.mp inside, Nat.add_zero]
  | blakeRun =>
      simp only [Option.bind_eq_some_iff] at emitted
      obtain ⟨numCalls, counted, emitted⟩ := emitted
      split at emitted
      · obtain ⟨rfl, rfl⟩ := Prod.mk.inj (Option.some.inj emitted)
        exact equal_of_count found counted
      · exact absurd emitted (by simp)
  | keccakRun =>
      simp only [Option.bind_eq_some_iff] at emitted
      obtain ⟨numCalls, counted, emitted⟩ := emitted
      split at emitted
      · obtain ⟨rfl, rfl⟩ := Prod.mk.inj (Option.some.inj emitted)
        exact equal_of_count found counted
      · exact absurd emitted (by simp)

theorem preprocessAt_pos
    {i numWords : Nat} {instr : Instruction}
    (run : preprocessAt opt bytecode i = some (instr, numWords)) : 0 < numWords := by
  rcases preprocessAt_cases run with ⟨_, rfl⟩ | ⟨_, rfl | rfl⟩ | ⟨_, rfl⟩
  · exact Nat.one_pos
  · decide
  · decide
  · decide

/-- The words of a visited position end before the next visited position. -/
theorem Visits.run_le
    {i later numWords : Nat} {instr : Instruction} (visited : Visits opt bytecode i)
    (run : preprocessAt opt bytecode i = some (instr, numWords))
    (visitedLater : Visits opt bytecode later) (before : i < later) :
    i + numWords ≤ later := by
  induction later using Nat.strongRecOn generalizing i numWords instr with
  | ind later inductionHypothesis =>
      cases visitedLater with
      | start => exact absurd before (Nat.not_lt_zero i)
      | @next q otherWords otherInstr visitedOther otherRun =>
          have otherPos := preprocessAt_pos otherRun
          rcases Nat.lt_trichotomy i q with less | same | greater
          · have ends := inductionHypothesis q (by omega) visited run visitedOther less
            omega
          · subst same
            have sameRun := Option.some.inj (run.symm.trans otherRun)
            rw [Prod.mk.injEq] at sameRun
            omega
          · have ends := inductionHypothesis i before visitedOther otherRun visited greater
            omega

/-- No visited position lies inside a run. -/
theorem Visits.not_foldedAway
    {position : Nat} (visited : Visits opt bytecode position) :
    ¬ FoldedAway opt bytecode position := by
  rintro ⟨i, instr, numWords, visitedRun, run, after, inside⟩
  have ends := visitedRun.run_le run visited after
  omega

/-! ## The emitted list -/

/-- What the list holds besides the filler was emitted at a visited position. -/
def EmittedOnly (opt : DecodingOptions) (bytecode : List U32)
    (instructions : List Instruction) : Prop :=
  ∀ i instr, instructions[i]? = some instr →
    instr = .illegalInstr ∨
      ∃ numWords, Visits opt bytecode i ∧
        preprocessAt opt bytecode i = some (instr, numWords)

theorem EmittedOnly.set
    {instructions : List Instruction} (emitted : EmittedOnly opt bytecode instructions)
    {i numWords : Nat} {instr : Instruction} (visited : Visits opt bytecode i)
    (run : preprocessAt opt bytecode i = some (instr, numWords)) :
    EmittedOnly opt bytecode (instructions.set i instr) := by
  intro j other found
  rw [List.getElem?_set] at found
  split at found
  · next same =>
      split at found
      · obtain rfl := Option.some.inj found
        exact Or.inr ⟨numWords, same ▸ visited, same ▸ run⟩
      · exact absurd found (by simp)
  · exact emitted j other found

theorem preprocessFrom_emittedOnly
    {fuel i : Nat} {instructions result : List Instruction}
    (visited : Visits opt bytecode i) (emitted : EmittedOnly opt bytecode instructions)
    (preprocessed : preprocessFrom opt bytecode fuel i instructions = some result) :
    EmittedOnly opt bytecode result := by
  induction fuel generalizing i instructions with
  | zero => rwa [← Option.some.inj preprocessed]
  | succ fuel inductionHypothesis =>
      rw [preprocessFrom] at preprocessed
      split at preprocessed
      · simp only [Option.bind_eq_bind, Option.bind_eq_some_iff, Prod.exists] at preprocessed
        obtain ⟨instr, numWords, run, rest⟩ := preprocessed
        exact inductionHypothesis (visited.next run) (emitted.set visited run) rest
      · rwa [← Option.some.inj preprocessed]

theorem preprocessBytecode_emittedOnly
    {instructions : List Instruction}
    (preprocessed : preprocessBytecode opt bytecode = some instructions) :
    EmittedOnly opt bytecode instructions := by
  refine preprocessFrom_emittedOnly Visits.start ?_ preprocessed
  intro i instr found
  rw [List.getElem?_replicate] at found
  split at found
  · exact Or.inl (Option.some.inj found).symm
  · exact absurd found (by simp)

theorem preprocessAt_canonical
    {i numWords : Nat} {instr : Instruction}
    (run : preprocessAt opt bytecode i = some (instr, numWords)) :
    instr.Canonical emittedDelegations := by
  rcases preprocessAt_cases run with ⟨canonical, _⟩ | ⟨rfl, _⟩ | ⟨rfl, _⟩
  · exact canonical_mono (by decide) canonical
  · exact ⟨rfl, rfl, rfl, by decide⟩
  · exact ⟨rfl, rfl, rfl, by decide⟩

/-- Every instruction of a preprocessed tape is canonical. -/
theorem simpleTape_canonical
    {instructions : List Instruction}
    (preprocessed : preprocessBytecode opt bytecode = some instructions)
    {pc : U32} {instr : Instruction} (read : simpleTape instructions pc = some instr) :
    instr.Canonical emittedDelegations := by
  rcases preprocessBytecode_emittedOnly preprocessed _ _ read with rfl | ⟨numWords, _, run⟩
  · exact illegalInstr_canonical _
  · exact preprocessAt_canonical run

end Positions

/-! ## The calls a step performs -/

section Calls

variable {C : Type}

/-- The counters after `numCalls` calls of one delegation type. -/
def countCalls [Counters C] (imm : U32) (numCalls : Nat) (counters : C) : C :=
  let bump :=
    if imm = DelegationType.bigInt.code then
      Counters.bumpBigint
    else if imm = DelegationType.blake.code then
      Counters.bumpBlake2RoundFunction
    else
      Counters.bumpKeccakSpecial5
  Counters.logMultipleCircuitFamilyCalls .shiftBinaryCsr numCalls (bump numCalls counters)

/-- The calls a delegation instruction performs in the given state. -/
def callsPerformed (state : State C) (imm : U32) : Nat :=
  if imm = DelegationType.bigInt.code then
    1
  else if imm = DelegationType.blake.code then
    Blake2s.numRounds (state.registers 12).value
  else
    numDelegationCallsForKeccakF1600

/-- Two runs of at most a Keccak batch move the program counter alike only when they
have the same length. -/
theorem pc_add_inj {pc : U32} {first second : Nat}
    (firstSmall : first ≤ 649) (secondSmall : second ≤ 649) :
    pc + BitVec.ofNat 32 (4 * first) = pc + BitVec.ofNat 32 (4 * second) ↔
      first = second := by
  constructor
  · intro same
    have sameOffset := congrArg BitVec.toNat (BitVec.add_right_inj pc |>.mp same)
    rw [BitVec.toNat_ofNat, BitVec.toNat_ofNat] at sameOffset
    omega
  · rintro rfl
    rfl

theorem callsPerformed_le (state : State C) (imm : U32) : callsPerformed state imm ≤ 649 := by
  have rounds := Blake2s.numRounds_le_ten (state.registers 12).value
  have keccak : numDelegationCallsForKeccakF1600 = 649 := rfl
  unfold callsPerformed
  split
  · decide
  · split <;> omega

/-- The calls performed are the words folded away exactly when a Blake2s run has the
length that the reduced-rounds flag asks for. -/
theorem callsPerformed_eq_iff
    {opt : DecodingOptions} {bytecode : List U32} {i numWords : Nat} {instr : Instruction}
    (run : preprocessAt opt bytecode i = some (instr, numWords))
    (delegation : instr.name = .zicsrDelegation) (state : State C) :
    callsPerformed state instr.imm = numWords ↔
      (instr.imm = DelegationType.blake.code →
        (numWords = 7 ↔ Blake2s.reducedRounds (state.registers 12).value = true)) := by
  rcases preprocessAt_cases run with ⟨canonical, rfl⟩ | ⟨rfl, length⟩ | ⟨rfl, rfl⟩
  · rw [Instruction.Canonical, delegation] at canonical
    have bigInt : instr.imm = DelegationType.bigInt.code :=
      List.mem_singleton.mp canonical.2.2.2
    have notBlake : instr.imm ≠ DelegationType.blake.code := by
      rw [bigInt]
      decide
    rw [callsPerformed, if_pos bigInt]
    simp [notBlake]
  · have calls :
        callsPerformed state DelegationType.blake.code =
          Blake2s.numRounds (state.registers 12).value := rfl
    simp only [Instruction.fromImm, calls, Blake2s.numRounds, true_implies]
    cases Blake2s.reducedRounds (state.registers 12).value with
    | true => simp [eq_comm]
    | false =>
        rcases length with rfl | rfl
        · simp
        · simp
  · have calls :
        callsPerformed state DelegationType.keccak.code =
          numDelegationCallsForKeccakF1600 := rfl
    have notBlake : DelegationType.keccak.code ≠ DelegationType.blake.code := by
      decide
    simp [Instruction.fromImm, calls, notBlake]

variable [Counters C] {romBits : Nat} {ND : Type} [NonDeterminismCSRSource ND] [Ruint]

/-- A step over a delegation moves past the calls it performs and counts them. -/
theorem callDelegation_pc
    {state state' : State C} {ram ram' : RamWithRomRegion romBits} {instr : Instruction}
    {events : List SnapshotEvent}
    (call : callDelegation state ram instr = some (state', ram', events)) :
    state'.pc = state.pc + BitVec.ofNat 32 (4 * callsPerformed state instr.imm) ∧
      state'.counters =
        countCalls instr.imm (callsPerformed state instr.imm) state.counters := by
  unfold callDelegation at call
  unfold callsPerformed countCalls
  split at call
  · obtain ⟨result, flag, reads, writes, spec⟩ := bigintCall_eq_some call
    rw [spec.state_eq]
    simp only [*, if_true]
    exact ⟨rfl, rfl⟩
  · split at call
    · obtain ⟨lastTimestamp, registerTimestamp, writes, reads, spec⟩ :=
        blake2RoundFunctionCall_eq_some call
      rw [spec.state_eq]
      simp only [*, if_true]
      exact ⟨rfl, rfl⟩
    · split at call
      · obtain ⟨lastTimestamp, registerTimestamp, writes, spec⟩ :=
          keccakSpecial5Call_eq_some call
        rw [spec.state_eq]
        simp only [*]
        exact ⟨rfl, rfl⟩
      · exact absurd call (by simp)

theorem execute_delegation
    {machine : Machine C romBits ND} {instr : Instruction}
    (delegation : instr.name = .zicsrDelegation) :
    execute machine instr =
      machine.onMemory (callDelegation machine.state machine.ram instr) := by
  simp only [execute, delegation]

/-- A step over a folded delegation moves past exactly the words of the run, and counts
one call for each of them, if and only if a Blake2s run is as long as the control word
in `x12` asks for.  The words of the run are equal, and the position after it is not
folded away. -/
theorem runStep_foldedDelegation_iff
    {opt : DecodingOptions} {bytecode : List U32} {instructions : List Instruction}
    (preprocessed : preprocessBytecode opt bytecode = some instructions)
    {i : Nat} {instr : Instruction} (emitted : instructions[i]? = some instr)
    (delegation : instr.name = .zicsrDelegation)
    {machine machine' : Machine C romBits ND} {events : List SnapshotEvent}
    (atPosition : machine.state.pc.toNat = 4 * i)
    (step : runStep (simpleTape instructions) machine = some (machine', events)) :
    ∃ numWords,
      preprocessAt opt bytecode i = some (instr, numWords) ∧
        (∀ j < numWords, bytecode[i + j]? = bytecode[i]?) ∧
        ¬ FoldedAway opt bytecode (i + numWords) ∧
        ((machine'.state.pc = machine.state.pc + BitVec.ofNat 32 (4 * numWords) ∧
            machine'.state.counters =
              countCalls instr.imm numWords machine.state.counters) ↔
          (instr.imm = DelegationType.blake.code →
            (numWords = 7 ↔
              Blake2s.reducedRounds (machine.state.registers 12).value = true))) := by
  have notIllegal : instr ≠ .illegalInstr := by
    rintro rfl
    exact absurd delegation (by decide)
  obtain ⟨numWords, visited, run⟩ :=
    (preprocessBytecode_emittedOnly preprocessed i instr emitted).resolve_left notIllegal
  refine ⟨numWords, run, fun j inside => preprocessAt_equal run inside,
    (visited.next run).not_foldedAway, ?_⟩
  have position : (machine.state.pc >>> 2).toNat = i := by
    rw [BitVec.toNat_ushiftRight, atPosition, Nat.shiftRight_eq_div_pow]
    omega
  have read : simpleTape instructions machine.state.pc = some instr := by
    rw [simpleTape, position, emitted]
  have small : numWords ≤ 649 := by
    rcases preprocessAt_cases run with ⟨_, rfl⟩ | ⟨_, rfl | rfl⟩ | ⟨_, rfl⟩ <;> decide
  simp only [runStep, read, Option.bind_eq_bind, Option.bind_some,
    execute_delegation delegation, Machine.onMemory, Option.map_eq_some_iff,
    Prod.mk.injEq, Prod.exists] at step
  obtain ⟨state', ram', _, call, rfl, rfl⟩ := step
  obtain ⟨pc, counters⟩ := callDelegation_pc call
  rw [← callsPerformed_eq_iff run delegation machine.state, pc, counters,
    pc_add_inj (callsPerformed_le machine.state instr.imm) small]
  constructor
  · exact fun moved => moved.1
  · intro same
    rw [same]
    exact ⟨rfl, rfl⟩

end Calls

/-! ## A run of seven words, with and without the reduced-rounds flag -/

/-- Seven Blake2s delegation words, then four times `addi x0, x0, 0`. -/
def sevenCallsImage : List U32 :=
  List.replicate 7 0x7c701073 ++ List.replicate 4 0x13

def sevenCallsInstructions : List Instruction :=
  [.fromImm .zicsrDelegation 0 0 0 DelegationType.blake.code] ++
    List.replicate 6 .illegalInstr ++ List.replicate 4 (.fromImm .addi 0 0 0 0)

theorem preprocessBytecode_sevenCallsImage :
    preprocessBytecode fullUnsignedMachineDecoderConfig sevenCallsImage =
      some sevenCallsInstructions := by
  decide +kernel

def reducedRoundsMachine : Machine DelegationsCounters romSecondWordBits Unit where
  state := reducedRoundsState
  ram := zeroRam
  nd := ()

/-- The same call with the reduced-rounds flag of `x12` cleared. -/
def fullRoundsMachine : Machine DelegationsCounters romSecondWordBits Unit where
  state := reducedRoundsState.setRegister 12 ⟨0, 0x80000⟩
  ram := zeroRam
  nd := ()

/-- The executor runs ten rounds over a folded run of seven words, and moves past three
instructions it does not execute. -/
theorem runStep_sevenCalls_skips :
    preprocessAt fullUnsignedMachineDecoderConfig sevenCallsImage 0 =
        some (.fromImm .zicsrDelegation 0 0 0 DelegationType.blake.code, 7) ∧
      fullRoundsMachine.state.pc = 0 ∧
      ∃ machine' events,
        runStep (simpleTape sevenCallsInstructions) fullRoundsMachine =
            some (machine', events) ∧
          machine'.state.pc = BitVec.ofNat 32 (4 * 10) ∧
          machine'.state.pc ≠ fullRoundsMachine.state.pc + BitVec.ofNat 32 (4 * 7) := by
  have moved :
      (runStep (simpleTape sevenCallsInstructions) fullRoundsMachine).map
          (fun result => result.1.state.pc) = some (BitVec.ofNat 32 (4 * 10)) := by
    decide +kernel
  obtain ⟨⟨machine', events⟩, step, pc⟩ := Option.map_eq_some_iff.mp moved
  refine ⟨by decide +kernel, rfl, machine', events, step, pc, ?_⟩
  rw [pc]
  decide

theorem runStep_foldedDelegation_iff_sevenCalls :
    ∃ machine' events numWords,
      runStep (simpleTape sevenCallsInstructions) reducedRoundsMachine =
          some (machine', events) ∧
        preprocessAt fullUnsignedMachineDecoderConfig sevenCallsImage 0 =
            some (.fromImm .zicsrDelegation 0 0 0 DelegationType.blake.code, numWords) ∧
        ((machine'.state.pc =
              reducedRoundsMachine.state.pc + BitVec.ofNat 32 (4 * numWords) ∧
            machine'.state.counters =
              countCalls DelegationType.blake.code numWords
                reducedRoundsMachine.state.counters) ↔
          (DelegationType.blake.code = DelegationType.blake.code →
            (numWords = 7 ↔
              Blake2s.reducedRounds (reducedRoundsMachine.state.registers 12).value =
                true))) := by
  have succeeds :
      (runStep (simpleTape sevenCallsInstructions) reducedRoundsMachine).isSome = true := by
    decide +kernel
  obtain ⟨⟨machine', events⟩, step⟩ := Option.isSome_iff_exists.mp succeeds
  obtain ⟨numWords, run, _, _, exact_iff⟩ :=
    runStep_foldedDelegation_iff preprocessBytecode_sevenCallsImage rfl rfl (show _ = 4 * 0 from rfl) step
  exact ⟨machine', events, numWords, step, run, exact_iff⟩

end Airbender
